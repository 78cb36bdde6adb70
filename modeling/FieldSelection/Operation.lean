import FieldSelection.Node.Builder
import FieldSelection.Node.Edit
import FieldSelection.Node.Rewrite
import FieldSelection.Node.Trace
import FieldSelection.Parse

/-!
Contract: everything that makes a tree, as operations on a workbench.

Owns:
- `Operation`, one operation for each way to come by a tree: to read a text, to build
  with the trees at hand, to take an earlier tree or a part of one, and to fold one;
- `Workbench.carryOut` and `Workbench.carryOutAll`.

Does not own: the steps of building (`Workbench.perform`) or any folder.

An operation that cannot be carried out changes nothing, so a list of operations always
leads to a workbench.
-/

set_option autoImplicit false

namespace FieldSelection

inductive Operation : Type 1 where
  /-- Put the tree of a text on the workbench. -/
  | read (text : String)
  | build (request : BuildStep)
  /-- Put a tree that was made before on top once more. -/
  | fetch (position : Nat)
  /-- Put a node of the top tree on top of it. -/
  | part (position : Nat)
  /-- Put the edited tree in place of the top tree. -/
  | edit (rules : EditRules)
  /-- Put the rewritten tree in place of the top tree. -/
  | rewrite {σ : Type} (strategy : Strategy σ) (state : σ)

namespace Workbench

/-- Puts a node on top, if there is one. -/
def put (bench : Workbench) (node : Option AnyNode) : Workbench := ⟨node.toList ++ bench.stack⟩

/-- Puts another node in place of the top one, if there is one. -/
def replaceTop (bench : Workbench) (replacement : AnyNode → AnyNode) : Workbench :=
  match bench.stack with
  | [] => bench
  | top :: below => ⟨replacement top :: below⟩

def carryOut (bench : Workbench) : Operation → Workbench
  | .read text => bench.put ((parse text).toOption.map (AnyNode.mk .selection))
  | .build request => bench.performAll [request]
  | .fetch position => bench.put bench.stack[position]?
  | .part position => bench.put (bench.stack.head?.bind fun top => top.node.nodes[position]?)
  | .edit rules => bench.replaceTop fun top => ⟨top.shape, (top.node.edit rules).1⟩
  | .rewrite strategy state =>
    bench.replaceTop fun top => ⟨top.shape, (top.node.rewrite strategy state).1⟩

def carryOutAll (bench : Workbench) (operations : List Operation) : Workbench :=
  operations.foldl carryOut bench

end Workbench

end FieldSelection
