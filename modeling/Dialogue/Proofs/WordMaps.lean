import Dialogue.WordMap
import Mathlib.Logic.Basic

/-!
# Lookups in maps from words

A map that is built from a list of pairs gives the last value for a key, and a map is built again
from its own entries.
-/

namespace Dialogue.WordMap

variable {α : Type}

@[simp] theorem get?_empty (k : UInt64) : (empty : WordMap α).get? k = none := rfl

/-- An inserted value is found, and the values at other keys are those from before. -/
theorem get?_insert (m : WordMap α) (k : UInt64) (v : α) (l : UInt64) :
    (m.insert k v).get? l = if k = l then some v else m.get? l := by
  simp only [insert, get?]
  induction m.entries with
  | nil => by_cases hkl : k = l <;> simp [insertEntry, hkl]
  | cons e es ih =>
    rw [insertEntry]
    split
    · by_cases hkl : k = l <;> simp [hkl]
    split
    · rename_i _ hke
      by_cases hkl : k = l
      · simp [hkl]
      · have hel : ¬ e.1 = l := hke ▸ hkl
        simp [hkl, hel]
    · rename_i _ hke
      by_cases hel : e.1 = l
      · have hkl : ¬ k = l := fun h => hke (h.trans hel.symm)
        simp [hel, hkl]
      · simpa [hel] using ih

theorem get?_eq_some_iff {m : WordMap α} {k : UInt64} {v : α} :
    m.get? k = some v ↔ (k, v) ∈ m.entries := by
  obtain ⟨es, hes⟩ := m
  simp only [get?, Option.map_eq_some_iff]
  constructor
  · rintro ⟨e, he, rfl⟩
    have hfound := List.find?_some he
    have hkey : e.1 = k := beq_iff_eq.mp hfound
    exact hkey ▸ List.mem_of_find?_eq_some he
  · intro hmem
    refine ⟨(k, v), ?_, rfl⟩
    induction hes with
    | nil => cases hmem
    | @cons e es hlt _ ih =>
      rcases List.mem_cons.mp hmem with rfl | hmem
      · exact List.find?_cons_of_pos (beq_self_eq_true k)
      · have hne : (e.1 == k) = false :=
          beq_eq_false_iff_ne.mpr (UInt64.ne_of_lt (hlt (k, v) hmem))
        rw [List.find?_cons, hne]
        exact ih hmem

/-- Of the pairs that are put into a map the last one with a key counts. -/
theorem get?_foldl_insert (pairs : List (UInt64 × α)) (m : WordMap α) (k : UInt64) :
    (pairs.foldl (fun m e => m.insert e.1 e.2) m).get? k =
      ((pairs.findRev? fun e => e.1 == k).map Prod.snd).or (m.get? k) := by
  induction pairs generalizing m with
  | nil => rfl
  | cons e pairs ih =>
    rw [List.foldl_cons, ih, get?_insert, List.findRev?]
    cases hlast : pairs.findRev? fun e => e.1 == k with
    | some later => rfl
    | none => by_cases hek : e.1 = k <;> simp [hek]

theorem get?_ofList (pairs : List (UInt64 × α)) (k : UInt64) :
    (ofList pairs).get? k = (pairs.findRev? fun e => e.1 == k).map Prod.snd := by
  rw [ofList, get?_foldl_insert, get?_empty, Option.or_none]

theorem findRev?_map_add (pairs : List (UInt64 × α)) (c k : UInt64) :
    ((pairs.map fun e => (e.1 + c, e.2)).findRev? fun e => e.1 == k) =
      (pairs.findRev? fun e => e.1 == k - c).map fun e => (e.1 + c, e.2) := by
  induction pairs with
  | nil => rfl
  | cons e pairs ih =>
    have hkey : (e.1 + c == k) = (e.1 == k - c) := by
      rw [Bool.eq_iff_iff, beq_iff_eq, beq_iff_eq]
      constructor
      · rintro rfl
        exact (UInt64.add_sub_cancel e.1 c).symm
      · intro h
        rw [h, UInt64.sub_add_cancel]
    rw [List.map_cons, List.findRev?, List.findRev?, ih]
    cases pairs.findRev? fun e => e.1 == k - c with
    | some later => rfl
    | none =>
      simp only [Option.map_none, hkey]
      split
      · rfl
      · rfl

/-- A map with all keys moved is put over another map. -/
theorem get?_foldl_insert_add (pairs : List (UInt64 × α)) (c : UInt64) (m : WordMap α)
    (k : UInt64) :
    ((pairs.map fun e => (e.1 + c, e.2)).foldl (fun m e => m.insert e.1 e.2) m).get? k =
      ((ofList pairs).get? (k - c)).or (m.get? k) := by
  rw [get?_foldl_insert, get?_ofList, findRev?_map_add, Option.map_map]
  rfl

/-- A key behind all others goes to the end. -/
theorem insertEntry_of_forall_lt {k : UInt64} {es : List (UInt64 × α)} (h : ∀ e ∈ es, e.1 < k)
    (v : α) : insertEntry k v es = es ++ [(k, v)] := by
  induction es with
  | nil => rfl
  | cons e es ih =>
    have he : e.1 < k := h e List.mem_cons_self
    have hes : ∀ f ∈ es, f.1 < k := fun f hf => h f (List.mem_cons_of_mem e hf)
    have hlt : ¬ k < e.1 := UInt64.lt_asymm he
    have hne : k ≠ e.1 := (UInt64.ne_of_lt he).symm
    rw [insertEntry, if_neg hlt, if_neg hne, ih hes, List.cons_append]

theorem ext_entries {m n : WordMap α} (h : m.entries = n.entries) : m = n := by
  cases m
  cases n
  simpa using h

/-- Pairs with ascending keys behind those of a map go to its end. -/
theorem entries_foldl_insert {pairs : List (UInt64 × α)} {m : WordMap α}
    (h : (m.entries ++ pairs).Pairwise fun a b => a.1 < b.1) :
    (pairs.foldl (fun m e => m.insert e.1 e.2) m).entries = m.entries ++ pairs := by
  induction pairs generalizing m with
  | nil => exact (List.append_nil m.entries).symm
  | cons e pairs ih =>
    have hbefore : ∀ f ∈ m.entries, f.1 < e.1 := fun f hf =>
      (List.pairwise_append.mp h).2.2 f hf e List.mem_cons_self
    have hentries : (m.insert e.1 e.2).entries = m.entries ++ [e] :=
      insertEntry_of_forall_lt hbefore e.2
    rw [List.foldl_cons, ih, hentries, List.append_assoc, List.singleton_append]
    rwa [hentries, List.append_assoc, List.singleton_append]

/-- The entries of a map give the map back. -/
@[simp] theorem ofList_entries (m : WordMap α) : ofList m.entries = m := by
  apply ext_entries
  rw [ofList, entries_foldl_insert m.ascending]
  rfl

end Dialogue.WordMap
