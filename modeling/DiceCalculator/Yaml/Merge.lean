import DiceCalculator.Yaml.Graph
/-!
# Merge keys

A mapping may take in the entries of another mapping, or of several, under a merge key. Entries that
are taken in stand before the mapping's own, so its own replace them; of several mappings the
earlier ones come last for the same reason. What is taken in has its own merge keys resolved first.
-/
namespace DiceCalculator.Yaml

abbrev GraphM := StateT Graph (Except Flaw)

namespace Merge

/-- The entries before the first one under a merge key, the node under it, and the entries behind
it. -/
def split? (graph : Graph) : List (NodeId × NodeId) →
    Option (List (NodeId × NodeId) × NodeId × List (NodeId × NodeId))
  | [] => none
  | (key, value) :: rest =>
    if graph.tag key == .merge then some ([], value, rest)
    else (split? graph rest).map fun (before, source, behind) =>
      ((key, value) :: before, source, behind)

/-- Keys that would give a mapping the value of a scalar are plain text in a mapping. -/
def settleKeys (entries : List (NodeId × NodeId)) : GraphM Unit :=
  entries.forM fun (key, _) =>
    modify fun graph => if graph.tag key == .value then graph.setTag key .str else graph

def isMapping (graph : Graph) (id : NodeId) : Bool :=
  match graph.content id with
  | .mapping _ => true
  | _ => false

/-- Resolves the merge keys of a mapping, where some entries have been taken in already. Each step
takes away a merge key, so as many steps as there are entries in the document are enough. -/
def resolve : Nat → NodeId → List (NodeId × NodeId) → GraphM Unit
  | 0, _, _ => pure ()
  | fuel + 1, id, merged => do
    let graph ← get
    let entries := graph.entries id
    match split? graph entries with
    | none => do
      settleKeys entries
      modify (·.setContent id (.mapping (merged ++ entries)))
    | some (before, source, behind) => do
      set (graph.setContent id (.mapping (before ++ behind)))
      let more ← match graph.content source with
        | .mapping _ => do
          resolve fuel source []
          pure ((← get).entries source)
        | .sequence items => do
          let lists ← items.mapM fun item => do
            if !isMapping (← get) item then throw .malformed
            resolve fuel item []
            pure ((← get).entries item)
          pure lists.reverse.flatten
        | .scalar _ => throw .malformed
      resolve fuel id (merged ++ more)

/-- The number of entries of all mappings of a document. -/
def countEntries (graph : Graph) : Nat :=
  graph.foldl (fun n node => match node.content with
    | .mapping entries => n + entries.length
    | _ => n) 0

/-- The entries of a mapping once its merge keys are resolved; other nodes have none to give. -/
def entriesOf (id : NodeId) : GraphM (List (NodeId × NodeId)) := do
  let graph ← get
  if !isMapping graph id then throw .malformed
  resolve (countEntries graph + 1) id []
  pure ((← get).entries id)

end Merge

end DiceCalculator.Yaml
