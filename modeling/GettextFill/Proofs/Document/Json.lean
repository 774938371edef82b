import GettextFill.Document.Json
import GettextFill.Proofs.Dictionary

/-!
# The keys of documents in JSON

A key that is written twice in an object of a JSON text is there once in the document, with its last
value. So the keys of a document that was read are distinct, and so are those of its parts
(`hasDistinctKeys_of_read?`).
-/

namespace GettextFill

/-- The keys of a document are distinct, and so are those of each of its parts. -/
def Document.HasDistinctKeys (d : Document) : Prop :=
  d.fields.keys.Nodup ∧ ∀ part ∈ d.fields.values, part.fields.keys.Nodup

theorem Document.hasDistinctKeys_of_fields_eq_nil {d : Document} (h : d.fields = []) :
    d.HasDistinctKeys := by
  rw [HasDistinctKeys, h]
  exact ⟨.nil, fun _ hpart => absurd hpart List.not_mem_nil⟩

namespace Json

theorem fields_of_scalar? {t rest : Text} {d : Document} (h : scalar? t = some (d, rest)) :
    d.fields = [] := by
  rw [scalar?] at h
  split at h
  · cases h
    rfl
  · cases h
    rfl
  · cases h
    rfl
  · obtain ⟨⟨n, rest⟩, -, hn⟩ := Option.map_eq_some_iff.mp h
    cases hn
    rfl

/-- An object is made of fields that were read, and no other document has fields. -/
theorem fields_of_value? {fuel : Nat} {t rest : Text} {d : Document}
    (h : value? (fuel + 1) t = some (d, rest)) :
    d.fields = [] ∨ ∃ t' rest' pairs, fields? fuel t' = some (pairs, rest') ∧
      d = .object (Dictionary.ofPairs pairs) := by
  rw [value?] at h
  split at h
  · obtain ⟨⟨s, rest⟩, -, hs⟩ := Option.map_eq_some_iff.mp h
    cases hs
    exact .inl rfl
  · split at h
    · cases h
      exact .inl rfl
    · obtain ⟨⟨items, rest⟩, -, hitems⟩ := Option.map_eq_some_iff.mp h
      cases hitems
      exact .inl rfl
  · split at h
    · cases h
      exact .inl rfl
    · obtain ⟨⟨pairs, rest⟩, hpairs, hd⟩ := Option.map_eq_some_iff.mp h
      cases hd
      exact .inr ⟨_, _, pairs, hpairs, rfl⟩
  · exact .inl (fields_of_scalar? h)

/-- The first of several fields has a value that was read, and so have the others. -/
theorem forall_of_fields? {P : Document → Prop} {fuel : Nat}
    (hvalue : ∀ t d rest, value? fuel t = some (d, rest) → P d)
    (hfields : ∀ t pairs rest, fields? fuel t = some (pairs, rest) → ∀ p ∈ pairs, P p.2)
    {t rest : Text} {pairs : List (Text × Document)}
    (h : fields? (fuel + 1) t = some (pairs, rest)) : ∀ p ∈ pairs, P p.2 := by
  rw [fields?] at h
  split at h
  · split at h
    · cases h
    · split at h
      · split at h
        · cases h
        · next d t hd =>
          split at h
          · obtain ⟨⟨others, rest⟩, hothers, hpairs⟩ := Option.map_eq_some_iff.mp h
            cases hpairs
            exact List.forall_mem_cons.mpr ⟨hvalue _ _ _ hd, hfields _ _ _ hothers⟩
          · cases h
            exact List.forall_mem_singleton.mpr (hvalue _ _ _ hd)
          · cases h
      · cases h
  · cases h

/-- Values that are read have distinct keys, and so have the values of fields that are read. -/
theorem hasDistinctKeys_of_fuel (fuel : Nat) :
    (∀ t d rest, value? fuel t = some (d, rest) → d.HasDistinctKeys) ∧
      ∀ t pairs rest, fields? fuel t = some (pairs, rest) → ∀ p ∈ pairs, p.2.HasDistinctKeys := by
  induction fuel with
  | zero =>
      refine ⟨fun t d rest h => ?_, fun t pairs rest h => ?_⟩
      · rw [value?] at h
        cases h
      · rw [fields?] at h
        cases h
  | succ fuel ih =>
      refine ⟨fun t d rest h => ?_, fun t pairs rest h => forall_of_fields? ih.1 ih.2 h⟩
      rcases fields_of_value? h with h | ⟨t', rest', pairs, hpairs, rfl⟩
      · exact Document.hasDistinctKeys_of_fields_eq_nil h
      · refine ⟨Dictionary.nodup_keys_ofPairs pairs, fun part hpart => ?_⟩
        obtain ⟨p, hp, rfl⟩ := Dictionary.exists_of_mem_values_ofPairs hpart
        exact (ih.2 t' pairs rest' hpairs p hp).1

/-- A document that was read from JSON has distinct keys. -/
theorem hasDistinctKeys_of_read? {t : Text} {d : Document} (h : read? t = some d) :
    d.HasDistinctKeys := by
  rw [read?] at h
  split at h
  · next hd =>
    split at h
    · cases h
      exact (hasDistinctKeys_of_fuel _).1 _ _ _ hd
    · cases h
  · cases h

end Json

end GettextFill
