import GettextFill.Dictionary
import Mathlib.Data.List.Nodup

/-!
# Keys of dictionaries

A dictionary may hold a key twice, and then its first value is the one that is looked up. Neither
`insert` nor `put` makes a key appear again, so a dictionary in the order of documents has distinct
keys (`nodup_keys_ofPairs`). Of such a dictionary a look-up finds what it holds and nothing else
(`get?_eq_some_iff`).
-/

namespace GettextFill.Dictionary

variable {α β : Type}

/-! ### Look-ups -/

theorem get?_append (d e : Dictionary α) (key : Text) :
    get? (d ++ e) key = (d.get? key).or (e.get? key) := by
  induction d with
  | nil => rfl
  | cons p d ih =>
      obtain ⟨k, v⟩ := p
      rw [List.cons_append, get?_cons, get?_cons, ih]
      split <;> rfl

/-- Of many insertions the last one of a key counts. -/
theorem get?_foldl_insert (fields d : Dictionary α) (key : Text) :
    (fields.foldl (fun d (k, v) => d.insert k v) d).get? key =
      (get? fields.reverse key).or (d.get? key) := by
  induction fields generalizing d with
  | nil => rfl
  | cons p fields ih =>
      obtain ⟨k, v⟩ := p
      rw [List.foldl_cons, ih, List.reverse_cons, get?_append, Option.or_assoc, get?_insert,
        get?_cons]
      congr 1
      split <;> rfl

theorem mem_of_get? {d : Dictionary α} {key : Text} {v : α} (h : d.get? key = some v) :
    (key, v) ∈ d := by
  induction d with
  | nil => cases h
  | cons p d ih =>
      obtain ⟨k, w⟩ := p
      rw [get?_cons] at h
      split at h
      · next hk =>
        cases h
        exact hk ▸ List.mem_cons_self
      · exact List.mem_cons_of_mem _ (ih h)

theorem mem_keys_of_mem {d : Dictionary α} {key : Text} {v : α} (h : (key, v) ∈ d) :
    key ∈ d.keys :=
  List.mem_map.mpr ⟨(key, v), h, rfl⟩

theorem get?_eq_none_iff {d : Dictionary α} {key : Text} : d.get? key = none ↔ key ∉ d.keys := by
  induction d with
  | nil => simp [keys]
  | cons p d ih =>
      obtain ⟨k, v⟩ := p
      have hmem : key ∈ keys ((k, v) :: d) ↔ key = k ∨ key ∈ keys d := List.mem_cons
      rw [get?_cons, hmem]
      by_cases hk : k = key
      · simp [hk]
      · simp [hk, Ne.symm hk, ih]

/-- With distinct keys the value of a key is the one that stands beside it. -/
theorem get?_eq_some_iff {d : Dictionary α} (hd : d.keys.Nodup) {key : Text} {v : α} :
    d.get? key = some v ↔ (key, v) ∈ d := by
  refine ⟨mem_of_get?, fun h => ?_⟩
  induction d with
  | nil => cases h
  | cons p d ih =>
      obtain ⟨k, w⟩ := p
      obtain ⟨hk, hd⟩ := List.nodup_cons.mp hd
      rw [get?_cons]
      rcases List.mem_cons.mp h with h | h
      · cases h
        rw [if_pos rfl]
      · have hkey : k ≠ key := fun hkey => hk (hkey ▸ mem_keys_of_mem h)
        rw [if_neg hkey, ih hd h]

theorem keys_mapValues (f : α → β) (d : Dictionary α) : keys (d.mapValues f) = d.keys := by
  rw [keys, mapValues, List.map_map]
  rfl

/-! ### Adding a key -/

/-- A new key goes to the end. -/
theorem keys_insert (d : Dictionary α) (key : Text) (value : α) :
    keys (d.insert key value) = if key ∈ d.keys then d.keys else d.keys ++ [key] := by
  induction d with
  | nil => rfl
  | cons p d ih =>
      obtain ⟨k, v⟩ := p
      by_cases hk : k = key
      · subst hk
        simp [insert, keys]
      · have hkeys : keys (insert ((k, v) :: d) key value) = k :: keys (insert d key value) := by
          rw [insert, if_neg hk]
          rfl
        have hmem : key ∈ keys ((k, v) :: d) ↔ key ∈ keys d :=
          List.mem_cons.trans (or_iff_right (Ne.symm hk))
        simp only [hkeys, ih, hmem]
        split <;> rfl

/-- A key that is placed among others stands somewhere among them. -/
theorem place_perm (d : Dictionary α) (key : Text) (value : α) :
    (d.place key value).Perm ((key, value) :: d) := by
  induction d with
  | nil => exact .refl _
  | cons p d ih =>
      rw [place]
      split
      · exact .refl _
      · exact (ih.cons p).trans (.swap ..)

theorem contains_iff_mem_keys {d : Dictionary α} {key : Text} :
    d.contains key = true ↔ key ∈ d.keys := by
  rw [contains, Option.isSome_iff_ne_none, ne_eq, get?_eq_none_iff, not_not]

theorem nodup_keys_put {d : Dictionary α} (hd : d.keys.Nodup) (key : Text) (value : α) :
    (keys (d.put key value)).Nodup := by
  rw [put]
  split
  · next h =>
    rwa [keys_insert, if_pos (contains_iff_mem_keys.mp h)]
  · next h =>
    refine ((d.place_perm key value).map Prod.fst).nodup_iff.mpr (List.nodup_cons.mpr ⟨?_, hd⟩)
    exact fun hkey => h (contains_iff_mem_keys.mpr hkey)

theorem mem_values_insert {d : Dictionary α} {key : Text} {value v : α}
    (h : v ∈ values (d.insert key value)) : v = value ∨ v ∈ d.values := by
  induction d with
  | nil => exact Or.inl (List.mem_singleton.mp h)
  | cons p d ih =>
      rw [insert] at h
      split at h
      · exact (List.mem_cons.mp h).imp_right (List.mem_cons_of_mem _)
      · rcases List.mem_cons.mp h with rfl | h
        · exact Or.inr List.mem_cons_self
        · exact (ih h).imp_right (List.mem_cons_of_mem _)

theorem mem_values_place {d : Dictionary α} {key : Text} {value v : α}
    (h : v ∈ values (d.place key value)) : v = value ∨ v ∈ d.values :=
  List.mem_cons.mp (((d.place_perm key value).map Prod.snd).mem_iff.mp h)

/-- A `put` adds no value but its own. -/
theorem mem_values_put {d : Dictionary α} {key : Text} {value v : α}
    (h : v ∈ values (d.put key value)) : v = value ∨ v ∈ d.values := by
  rw [put] at h
  split at h
  · exact mem_values_insert h
  · exact mem_values_place h

/-! ### Dictionaries in the order of documents -/

/-- What every `put` keeps is true of a dictionary that is made of pairs. -/
theorem ofPairs_induction {P : Dictionary α → Prop} {pairs : List (Text × α)} (nil : P [])
    (put : ∀ d, ∀ p ∈ pairs, P d → P (d.put p.1 p.2)) : P (ofPairs pairs) := by
  suffices h : ∀ d, P d → P (pairs.foldl (fun d pair => d.put pair.1 pair.2) d) from h [] nil
  induction pairs with
  | nil => exact fun _ hd => hd
  | cons p pairs ih =>
      intro d hd
      exact ih (fun d q hq => put d q (List.mem_cons_of_mem p hq)) _ (put d p List.mem_cons_self hd)

theorem nodup_keys_ofPairs (pairs : List (Text × α)) : (keys (ofPairs pairs)).Nodup :=
  ofPairs_induction (P := fun d => d.keys.Nodup) .nil fun _ p _ hd => nodup_keys_put hd p.1 p.2

theorem exists_of_mem_values_ofPairs {pairs : List (Text × α)} {v : α}
    (h : v ∈ values (ofPairs pairs)) : ∃ p ∈ pairs, p.2 = v := by
  refine ofPairs_induction (P := fun d => v ∈ values d → ∃ p ∈ pairs, p.2 = v) ?_ ?_ h
  · exact fun h => absurd h List.not_mem_nil
  · intro d p hp hd h
    rcases mem_values_put h with rfl | h
    · exact ⟨p, hp, rfl⟩
    · exact hd h

end GettextFill.Dictionary
