import FatInstall.Yaml.Cursor
import FatInstall.Yaml.Graph

/-!
# Merging

A merge key brings the entries of another mapping, or of several, into the mapping around it. They
go before the mapping's own entries, so that these override them; of several mappings in a
sequence the earlier overrides the later. The key of the default value is a text once its mapping
is read.
-/

namespace FatInstall.Yaml.Graph

/-- The entries before the first merge key, the number of its value, and the entries after it. -/
def splitMerge (g : Graph) : List (Nat × Nat) → Option (List (Nat × Nat) × Nat × List (Nat × Nat))
  | [] => none
  | (k, v) :: r =>
    if (g.node k).tag = .merge then some ([], v, r)
    else (splitMerge g r).map fun (before, merged, after) => ((k, v) :: before, merged, after)

/-- The graph with text keys in place of the keys of default values among the entries. -/
def nameDefaults (g : Graph) (es : List (Nat × Nat)) : Graph :=
  es.foldl (fun g e => if (g.node e.1).tag = .default then g.setTag e.1 .str else g) g

mutual

/-- Merges into a mapping. Each round removes a merge key of the graph, so that the number of
entries bounds the depth. -/
def mergeInto : Nat → Nat → List (Nat × Nat) → Graph → Except Fault Graph
  | 0, _, _, _ => .error .malformed
  | fuel + 1, n, merged, g =>
    match g.splitMerge (g.entries n) with
    | none =>
      let own := g.entries n
      .ok ((g.nameDefaults own).setEntries n (merged ++ own))
    | some (before, value, after) => do
      let g := g.setEntries n (before ++ after)
      match (g.node value).content with
      | .mapping _ =>
        let g ← mergeInto fuel value [] g
        mergeInto fuel n (merged ++ g.entries value) g
      | .sequence items =>
        let (more, g) ← mergeAll fuel items g
        mergeInto fuel n (merged ++ more) g
      | .scalar _ => .error .malformed

/-- The entries of the mappings in a sequence, those of the last one first. -/
def mergeAll : Nat → List Nat → Graph → Except Fault (List (Nat × Nat) × Graph)
  | _, [], g => .ok ([], g)
  | 0, _ :: _, _ => .error .malformed
  | fuel + 1, n :: r, g =>
    match (g.node n).content with
    | .mapping _ => do
      let g ← mergeInto fuel n [] g
      let entries := g.entries n
      let (more, g) ← mergeAll fuel r g
      return (more ++ entries, g)
    | _ => .error .malformed

end

/-- The number of entries of all mappings and items of all sequences. -/
def weight (g : Graph) : Nat :=
  (g.nodes.toList.map fun x => match x.content with
    | .scalar _ => 1
    | .sequence items => items.length + 1
    | .mapping es => es.length + 1).foldl (· + ·) 0

/-- The graph with everything merged into a mapping that its merge keys ask for. A sequence can be
merged once for each merge key, which bounds the rounds. -/
def flatten (g : Graph) (n : Nat) : Except Fault Graph :=
  mergeInto ((g.weight + 2) * (g.weight + 2)) n [] g

end FatInstall.Yaml.Graph
