import Sequencer.Proofs.Results
import Sequencer.Table

namespace Sequencer.Table

variable {α β γ ε : Type}

theorem get?_map (f : α → β) (name : String) (t : Table α) :
    (t.map f).get? name = (t.get? name).map f := by
  unfold get? map
  induction t.entries with
  | nil => rfl
  | cons e es ih =>
    obtain ⟨key, v⟩ := e
    simp only [List.map_cons, List.lookup_cons, ih]
    cases name == key <;> rfl

theorem names_map (f : α → β) (t : Table α) : (t.map f).names = t.names := by
  simp [names, map]

theorem map_modify {g : α → β} {f : α → α} (h : ∀ v, g (f v) = g v) (name : String)
    (t : Table α) : (t.modify name f).map g = t.map g := by
  unfold map modify
  rw [List.map_map]
  congr 1
  apply List.map_congr_left
  intro e _
  simp only [Function.comp_apply]
  split <;> simp [h]

theorem map_map_of {g : α → β} {f : α → α} (h : ∀ v, g (f v) = g v) (t : Table α) :
    (t.map f).map g = t.map g := by
  simp [map, h]

/-- Tables that look the same through a map have entries under the same names that do. -/
theorem exists_of_map_eq {t u : Table α} {g : α → β} (h : u.map g = t.map g) {e : String × α}
    (he : e ∈ u.entries) : ∃ d ∈ t.entries, d.1 = e.1 ∧ g d.2 = g e.2 := by
  have hmem : (e.1, g e.2) ∈ (t.map g).entries := by
    rw [← h]
    exact List.mem_map_of_mem he
  obtain ⟨d, hd, heq⟩ := List.mem_map.mp hmem
  exact ⟨d, hd, Prod.mk.inj heq⟩

theorem get?_mem {t : Table α} {name : String} {v : α} (h : t.get? name = some v) :
    (name, v) ∈ t.entries := by
  obtain ⟨before, after, hentries, -⟩ := List.lookup_eq_some_iff.mp h
  rw [hentries]
  exact List.mem_append_right _ List.mem_cons_self

/-- The first entry of a name is the only one. -/
theorem get?_of_mem {t : Table α} (distinct : t.names.Nodup) {e : String × α}
    (h : e ∈ t.entries) : t.get? e.1 = some e.2 := by
  obtain ⟨before, after, hentries⟩ := List.append_of_mem h
  refine List.lookup_eq_some_iff.mpr ⟨before, after, hentries, fun p hp => ?_⟩
  rw [names, hentries, List.map_append, List.map_cons] at distinct
  have hne := (List.nodup_append.mp distinct).2.2 p.1 (List.mem_map_of_mem hp) e.1
    List.mem_cons_self
  simpa using Ne.symm hne

theorem exists_get? {t : Table α} {e : String × α} (h : e ∈ t.entries) :
    ∃ v, t.get? e.1 = some v := by
  apply Option.isSome_iff_exists.mp
  rw [get?, List.lookup_isSome_iff]
  exact ⟨e, h, by simp⟩

theorem mem_put {t : Table α} {name : String} {v : α} {e : String × α}
    (h : e ∈ (t.put name v).entries) : e ∈ t.entries ∨ e = (name, v) := by
  unfold put at h
  split at h
  · obtain ⟨old, hold, rfl⟩ := List.mem_map.mp h
    split
    · exact .inr rfl
    · exact .inl hold
  · rcases List.mem_append.mp h with hold | hnew
    · exact .inl hold
    · exact .inr (List.mem_singleton.mp hnew)

theorem contains_iff {t : Table α} {name : String} : t.contains name = true ↔ name ∈ t.names := by
  simp [contains]

theorem contains_eq_false_iff {t : Table α} {name : String} :
    t.contains name = false ↔ name ∉ t.names := by
  rw [← contains_iff, Bool.not_eq_true]

/-- No entry is under a name that is free. -/
theorem ne_of_mem {t : Table α} {e : String × α} (h : e ∈ t.entries) {name : String}
    (free : t.contains name = false) : e.1 ≠ name :=
  fun heq => contains_eq_false_iff.mp free (heq ▸ List.mem_map_of_mem h)

theorem get?_eq_none_iff {t : Table α} {name : String} :
    t.get? name = none ↔ t.contains name = false := by
  rw [← Option.not_isSome_iff_eq_none, get?, List.lookup_isSome_iff, ← Bool.not_eq_true,
    contains_iff, names, List.mem_map]
  simp only [beq_iff_eq, eq_comm (a := name)]

theorem names_put {t : Table α} {name : String} (free : t.contains name = false) (v : α) :
    (t.put name v).names = t.names ++ [name] := by
  simp [put, free, names]

/-- A new name does not take the place of another one. -/
theorem nodup_put {t : Table α} (distinct : t.names.Nodup) {name : String}
    (free : t.contains name = false) (v : α) : (t.put name v).names.Nodup := by
  have hfree : name ∉ t.names := contains_eq_false_iff.mp free
  rw [names_put free]
  exact List.nodup_append.mpr ⟨distinct, by simp, fun n hn m hm heq =>
    hfree (List.mem_singleton.mp hm ▸ heq ▸ hn)⟩

theorem mem_erase {t : Table α} {name : String} {e : String × α} :
    e ∈ (t.erase name).entries ↔ e ∈ t.entries ∧ e.1 ≠ name := by
  simp [erase]

theorem mem_names_erase {t : Table α} {name other : String} :
    other ∈ (t.erase name).names ↔ other ∈ t.names ∧ other ≠ name := by
  simp [names, erase]

theorem mem_modify {t : Table α} {name : String} {f : α → α} {e : String × α}
    (h : e ∈ (t.modify name f).entries) :
    e ∈ t.entries ∨ ∃ v, (name, v) ∈ t.entries ∧ e = (name, f v) := by
  obtain ⟨old, hold, rfl⟩ := List.mem_map.mp h
  split
  case isTrue heq =>
    obtain rfl : old.1 = name := by simpa using heq
    exact .inr ⟨old.2, hold, rfl⟩
  case isFalse => exact .inl hold

theorem get?_modify (t : Table α) (name : String) (f : α → α) (key : String) :
    (t.modify name f).get? key = if key = name then (t.get? key).map f else t.get? key := by
  unfold get? modify
  induction t.entries with
  | nil => simp
  | cons e es ih =>
    obtain ⟨k, v⟩ := e
    by_cases hk : k = name
    · subst k
      by_cases hkey : key = name
      · simp [hkey]
      · simpa [List.lookup_cons, beq_eq_false_iff_ne.mpr hkey, hkey] using ih
    · by_cases hkey : key = k
      · simp [hkey, hk]
      · simpa [List.lookup_cons, beq_eq_false_iff_ne.mpr hkey, hk] using ih

theorem names_modify (t : Table α) (name : String) (f : α → α) :
    (t.modify name f).names = t.names := by
  unfold names modify
  rw [List.map_map]
  apply List.map_congr_left
  intro e _
  simp only [Function.comp_apply]
  split <;> rfl

theorem modify_modify (t : Table α) (name : String) (f g : α → α) :
    (t.modify name f).modify name g = t.modify name (g ∘ f) := by
  unfold modify
  rw [List.map_map]
  congr 2
  funext e
  simp only [Function.comp_apply]
  split <;> rfl

theorem modify_comm {f g : α → α} {a b : String} (h : a = b → ∀ v, g (f v) = f (g v))
    (t : Table α) : (t.modify a f).modify b g = (t.modify b g).modify a f := by
  by_cases hab : a = b
  · subst b
    rw [modify_modify, modify_modify]
    congr 1
    funext v
    exact h rfl v
  · unfold modify
    rw [List.map_map, List.map_map]
    congr 1
    apply List.map_congr_left
    intro e _
    by_cases ha : e.1 = a
    · simp [ha, hab]
    · by_cases hb : e.1 = b <;> simp [ha, hb, Ne.symm hab]

/-- A change that is seen through a map. -/
theorem map_modify_of {g : α → β} {f : α → α} {f' : β → β} {name : String} {t : Table α}
    (h : ∀ v, (name, v) ∈ t.entries → g (f v) = f' (g v)) :
    (t.modify name f).map g = (t.map g).modify name f' := by
  unfold map modify
  rw [List.map_map, List.map_map]
  congr 1
  apply List.map_congr_left
  intro e he
  simp only [Function.comp_apply]
  split
  case isTrue heq =>
    obtain rfl : e.1 = name := beq_iff_eq.mp heq
    rw [h e.2 he]
  case isFalse => rfl

theorem get?_erase (t : Table α) (name key : String) :
    (t.erase name).get? key = if key = name then none else t.get? key := by
  unfold get? erase
  induction t.entries with
  | nil => simp
  | cons e es ih =>
    obtain ⟨k, v⟩ := e
    by_cases hk : k = name
    · subst k
      by_cases hkey : key = name
      · simpa [hkey] using ih
      · simpa [List.lookup_cons, beq_eq_false_iff_ne.mpr hkey, hkey] using ih
    · by_cases hkey : key = k
      · simp [hkey, hk]
      · simpa [List.lookup_cons, beq_eq_false_iff_ne.mpr hkey, hk] using ih

theorem get?_put (t : Table α) (name : String) (v : α) (key : String) :
    (t.put name v).get? key = if key = name then some v else t.get? key := by
  cases hname : t.contains name with
  | true =>
    have hput : t.put name v = t.modify name fun _ => v := by
      simp only [put, hname, modify, if_pos]
      congr 2
      funext e
      split
      · next heq => rw [beq_iff_eq.mp heq]
      · rfl
    rw [hput, get?_modify]
    split
    case isTrue heq =>
      obtain ⟨e, he, hkey⟩ := List.mem_map.mp (contains_iff.mp hname)
      obtain ⟨w, hw⟩ := exists_get? he
      rw [heq, ← hkey, hw]
      rfl
    case isFalse => rfl
  | false =>
    have hnone := get?_eq_none_iff.mpr hname
    have hput : (t.put name v).entries = t.entries ++ [(name, v)] := by simp [put, hname]
    unfold get? at hnone ⊢
    rw [hput, List.lookup_append]
    by_cases heq : key = name
    · rw [heq, hnone]
      simp
    · simp [heq, List.lookup_cons, beq_eq_false_iff_ne.mpr heq]

theorem map_put (g : α → β) (name : String) (v : α) (t : Table α) :
    (t.put name v).map g = (t.map g).put name (g v) := by
  have hcontains : (t.map g).contains name = t.contains name := by
    rw [contains, contains, names_map]
  unfold put
  rw [hcontains]
  split
  · simp only [map, List.map_map]
    congr 2
    funext e
    simp only [Function.comp_apply]
    split <;> rfl
  · simp [map]

theorem map_erase (g : α → β) (name : String) (t : Table α) :
    (t.erase name).map g = (t.map g).erase name := by
  simp only [erase, map, List.filter_map]
  rfl

/-- The results of a traversal depend on the steps' results alone. -/
theorem traverseEntries_map_results (step : α → α × Except ε β) (f : α → α)
    (es : List (String × α)) (hf : ∀ e ∈ es, (step (f e.2)).2 = (step e.2).2) :
    (traverseEntries step (es.map fun e => (e.1, f e.2))).2 = (traverseEntries step es).2 := by
  induction es with
  | nil => rfl
  | cons e es ih =>
    have hv := hf e List.mem_cons_self
    replace ih := ih fun d hd => hf d (List.mem_cons_of_mem _ hd)
    obtain ⟨name, v⟩ := e
    rcases h : step v with ⟨v', r⟩
    rcases h' : step (f v) with ⟨w, r'⟩
    rw [h, h'] at hv
    obtain rfl : r' = r := hv
    cases r' with
    | error err => simp only [List.map_cons, traverseEntries, h, h']
    | ok s => simp only [List.map_cons, traverseEntries, h, h', ih]

/-- A traversal changes no entry beyond what its steps change. -/
theorem traverseEntries_map_entries (step : α → α × Except ε β) (f : α → γ)
    (hf : ∀ v, f (step v).1 = f v) (es : List (String × α)) :
    (traverseEntries step es).1.map (fun e => (e.1, f e.2)) = es.map fun e => (e.1, f e.2) := by
  induction es with
  | nil => rfl
  | cons e es ih =>
    obtain ⟨name, v⟩ := e
    have hv := hf v
    rcases h : step v with ⟨v', r⟩
    rw [h] at hv
    cases r with
    | error err => simp only [traverseEntries, h, List.map_cons, hv]
    | ok r => simp only [traverseEntries, h, List.map_cons, hv, ih]

/-- When all steps succeeded, every entry was stepped, and there is one result for each, in the same
order and under the same name. -/
theorem traverseEntries_ok (step : α → α × Except ε β) {es : List (String × α)}
    {rs : List (String × β)} (h : (traverseEntries step es).2 = .ok rs) :
    (traverseEntries step es).1 = es.map (fun e => (e.1, (step e.2).1)) ∧
      List.Forall₂ (fun e r => r.1 = e.1 ∧ (step e.2).2 = .ok r.2) es rs := by
  induction es generalizing rs with
  | nil =>
    cases h
    exact ⟨rfl, .nil⟩
  | cons e es ih =>
    obtain ⟨name, v⟩ := e
    rcases hs : step v with ⟨v', r⟩
    cases r with
    | error err => simp [traverseEntries, hs] at h
    | ok r =>
      simp only [traverseEntries, hs] at h
      cases hrest : (traverseEntries step es).2 with
      | error err => simp [hrest, Except.map] at h
      | ok rest =>
        simp only [hrest, Except.map, Except.ok.injEq] at h
        subst rs
        obtain ⟨hentries, hresults⟩ := ih hrest
        refine ⟨?_, .cons ⟨rfl, by rw [hs]⟩ hresults⟩
        simp only [traverseEntries, hs, hentries, List.map_cons]

/-- A failed traversal failed at one of its steps. -/
theorem traverse_error (step : α → α × Except ε β) {t : Table α} {err : ε}
    (h : (t.traverse step).2 = .error err) : ∃ e ∈ t.entries, (step e.2).2 = .error err := by
  have hentries : (traverseEntries step t.entries).2 = .error err := map_eq_error_iff.mp h
  generalize t.entries = es at hentries
  induction es with
  | nil => cases hentries
  | cons e es ih =>
    obtain ⟨name, v⟩ := e
    rcases hs : step v with ⟨v', r⟩
    cases r with
    | error err' =>
      obtain rfl : err' = err := by simpa [traverseEntries, hs] using hentries
      exact ⟨(name, v), List.mem_cons_self, congrArg Prod.snd hs⟩
    | ok r =>
      simp only [traverseEntries, hs] at hentries
      obtain ⟨e, he, herr⟩ := ih (map_eq_error_iff.mp hentries)
      exact ⟨e, List.mem_cons_of_mem _ he, herr⟩

/-- The steps through two tables agree when they do on each entry. -/
theorem traverse_agree {step : α → α × Except ε β} {t u : Table α}
    (h : List.Forall₂ (fun e d => Agree (fun _ _ => True) (step e.2).2 (step d.2).2)
      t.entries u.entries) : Agree (fun _ _ => True) (t.traverse step).2 (u.traverse step).2 := by
  have hentries : ∀ {es ds : List (String × α)},
      List.Forall₂ (fun e d => Agree (fun _ _ => True) (step e.2).2 (step d.2).2) es ds →
      Agree (fun _ _ => True) (traverseEntries step es).2 (traverseEntries step ds).2 := by
    intro es ds h
    induction h with
    | nil => exact .ok trivial
    | @cons e d es ds hfirst _ ih =>
      obtain ⟨name, v⟩ := e
      obtain ⟨name', v'⟩ := d
      unfold traverseEntries
      rcases hv : step v with ⟨w, r⟩
      rcases hv' : step v' with ⟨w', r'⟩
      rw [hv, hv'] at hfirst
      cases hfirst with
      | ok _ => exact ih.map fun _ _ _ => trivial
      | error e e' => exact .error e e'
  exact (hentries h).map fun _ _ _ => trivial

end Sequencer.Table
