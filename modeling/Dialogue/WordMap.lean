/-!
# Maps from words

A finite map from 64-bit words, kept as a list of pairs with ascending keys, so that two maps with
the same entries are equal.
-/

namespace Dialogue

structure WordMap (α : Type) where
  entries : List (UInt64 × α)
  ascending : entries.Pairwise fun a b => a.1 < b.1
  deriving DecidableEq

namespace WordMap

variable {α : Type}

/-- Puts a pair at its place, over the pair with the same key. -/
def insertEntry (k : UInt64) (v : α) : List (UInt64 × α) → List (UInt64 × α)
  | [] => [(k, v)]
  | e :: es =>
    if k < e.1 then (k, v) :: e :: es
    else if k = e.1 then (k, v) :: es
    else e :: insertEntry k v es

theorem mem_insertEntry {k : UInt64} {v : α} {es : List (UInt64 × α)} {e : UInt64 × α}
    (h : e ∈ insertEntry k v es) : e = (k, v) ∨ e ∈ es := by
  induction es with
  | nil => simpa [insertEntry] using h
  | cons f es ih =>
    rw [insertEntry] at h
    split at h
    · simpa using h
    split at h
    · rcases List.mem_cons.mp h with h | h
      · exact .inl h
      · exact .inr (List.mem_cons_of_mem _ h)
    · rcases List.mem_cons.mp h with h | h
      · exact .inr (h ▸ List.mem_cons_self)
      · exact (ih h).imp id (List.mem_cons_of_mem _)

theorem pairwise_insertEntry (k : UInt64) (v : α) {es : List (UInt64 × α)}
    (h : es.Pairwise fun a b => a.1 < b.1) :
    (insertEntry k v es).Pairwise fun a b => a.1 < b.1 := by
  induction es with
  | nil => simp [insertEntry]
  | cons e es ih =>
    obtain ⟨he, hes⟩ := List.pairwise_cons.mp h
    rw [insertEntry]
    split
    · rename_i hk
      refine List.pairwise_cons.mpr ⟨fun f hf => ?_, h⟩
      rcases List.mem_cons.mp hf with rfl | hf
      · exact hk
      · exact UInt64.lt_trans hk (he f hf)
    split
    · rename_i hk
      exact List.pairwise_cons.mpr ⟨fun f hf => hk ▸ he f hf, hes⟩
    · rename_i hlt hne
      refine List.pairwise_cons.mpr ⟨fun f hf => ?_, ih hes⟩
      rcases mem_insertEntry hf with rfl | hf
      · exact UInt64.lt_of_le_of_ne (UInt64.not_lt.mp hlt) (Ne.symm hne)
      · exact he f hf

def empty : WordMap α := ⟨[], .nil⟩

/-- The map with one more entry, which takes the place of an older one with the same key. -/
def insert (m : WordMap α) (k : UInt64) (v : α) : WordMap α :=
  ⟨insertEntry k v m.entries, pairwise_insertEntry k v m.ascending⟩

def get? (m : WordMap α) (k : UInt64) : Option α :=
  (m.entries.find? fun e => e.1 == k).map Prod.snd

/-- The map of a list of pairs. Of two pairs with the same key the later one counts. -/
def ofList (pairs : List (UInt64 × α)) : WordMap α :=
  pairs.foldl (fun m e => m.insert e.1 e.2) empty

def size (m : WordMap α) : Nat :=
  m.entries.length

end WordMap

end Dialogue
