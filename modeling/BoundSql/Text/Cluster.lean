import BoundSql.Text.Mark

/-!
# Clusters of characters

A cluster is a character together with the marks that belong to it, what a reader takes for one
letter.  Nothing is lost: the clusters one after the other are the characters.
-/

namespace BoundSql.Text

/-- Controls, separators and format characters, to which no mark belongs. -/
def standalone : List (Nat × Nat) := [
  (0x0, 0x1F), (0x7F, 0x9F), (0xAD, 0xAD), (0x61C, 0x61C), (0x180E, 0x180E), (0x200B, 0x200B),
  (0x200E, 0x200F), (0x2028, 0x202E), (0x2060, 0x206F), (0xFEFF, 0xFEFF), (0xFFF0, 0xFFFB),
  (0x13430, 0x1343F), (0x1BCA0, 0x1BCA3), (0x1D173, 0x1D17A), (0xE0000, 0xE001F),
  (0xE0080, 0xE00FF), (0xE01F0, 0xE0FFF)]

/-- Whether two neighbours are in one cluster. -/
def joined (a b : Char) : Bool :=
  (joinsBefore b.toNat || joinsAfter a.toNat)
    && !inRanges standalone a.toNat && !inRanges standalone b.toNat

/-- A character put before clusters, joined with the first one where they belong together. -/
def consCluster (c : Char) : List (List Char) → List (List Char)
  | (d :: ds) :: rest => if joined c d then (c :: d :: ds) :: rest else [c] :: (d :: ds) :: rest
  | rest => [c] :: rest

/-- The clusters of characters. -/
def clusters : List Char → List (List Char)
  | [] => []
  | c :: cs => consCluster c (clusters cs)

theorem flatten_consCluster (c : Char) (ds : List (List Char)) :
    (consCluster c ds).flatten = c :: ds.flatten := by
  unfold consCluster
  split
  · split <;> rfl
  · rfl

@[simp] theorem flatten_clusters (cs : List Char) : (clusters cs).flatten = cs := by
  induction cs with
  | nil => rfl
  | cons c cs ih => rw [clusters, flatten_consCluster, ih]

end BoundSql.Text
