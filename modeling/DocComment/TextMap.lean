namespace DocComment

/-- The entries of a map with rising keys, after setting one of them. -/
def insertEntry (key value : String) : List (String × String) → List (String × String)
  | [] => [(key, value)]
  | (other, old) :: rest =>
    if key < other then (key, value) :: (other, old) :: rest
    else if key = other then (key, value) :: rest
    else (other, old) :: insertEntry key value rest

theorem fst_of_mem_insertEntry {key value : String} {entries : List (String × String)}
    {entry : String × String} (member : entry ∈ insertEntry key value entries) :
    entry.1 = key ∨ entry ∈ entries := by
  induction entries with
  | nil => simp_all [insertEntry]
  | cons first rest ih => grind [insertEntry]

/-- Setting an entry keeps the keys rising. -/
theorem pairwise_insertEntry (key value : String) {entries : List (String × String)}
    (sorted : entries.Pairwise fun a b => a.1 < b.1) :
    (insertEntry key value entries).Pairwise fun a b => a.1 < b.1 := by
  induction entries with
  | nil => simp [insertEntry]
  | cons first rest ih =>
    obtain ⟨other, old⟩ := first
    obtain ⟨above, tail⟩ := List.pairwise_cons.mp sorted
    unfold insertEntry
    split
    · rename_i before
      refine List.pairwise_cons.mpr ⟨fun entry member => ?_, sorted⟩
      rcases List.mem_cons.mp member with same | later
      · exact same ▸ before
      · exact String.lt_trans before (above entry later)
    · split
      · rename_i same
        exact List.pairwise_cons.mpr ⟨fun entry member => same ▸ above entry member, tail⟩
      · refine List.pairwise_cons.mpr ⟨fun entry member => ?_, ih tail⟩
        rcases fst_of_mem_insertEntry member with same | old
        · grind
        · exact above entry old

/-- A map from text to text. No key occurs twice. -/
structure TextMap where
  entries : List (String × String)
  sorted : entries.Pairwise fun a b => a.1 < b.1
  deriving Repr, DecidableEq

namespace TextMap

def empty : TextMap :=
  ⟨[], .nil⟩

def insert (map : TextMap) (key value : String) : TextMap :=
  ⟨insertEntry key value map.entries, pairwise_insertEntry key value map.sorted⟩

/-- Of two entries with one key the later counts. -/
def ofList (entries : List (String × String)) : TextMap :=
  entries.foldl (fun map (key, value) => map.insert key value) empty

end TextMap

end DocComment
