import Sequencer.Proofs.Float.Laws
import Sequencer.Proofs.Lists
import Sequencer.Signal

namespace Sequencer

/-- Halving finds where a predicate turns false that is never true again from there on. -/
theorem bisect_spec {p : Nat → Bool} (hp : ∀ i j, i ≤ j → p j = true → p i = true)
    (base size : Nat) :
    bisect p base size ≤ base + size ∧
      ∀ i, base ≤ i → i < base + size → (i < bisect p base size ↔ p i = true) := by
  fun_induction bisect p base size with
  | case1 base size hsize hlast =>
    obtain ⟨rfl, hbase⟩ : size = 1 ∧ p base = true := by simpa using hlast
    refine ⟨Nat.le_refl _, fun i hlow hhigh => ?_⟩
    obtain rfl : i = base := by omega
    simp [hbase]
  | case2 base size hsize hlast =>
    refine ⟨by omega, fun i hlow hhigh => ?_⟩
    obtain ⟨rfl, rfl⟩ : size = 1 ∧ i = base := by omega
    simpa using hlast
  | case3 base size hsize half ih =>
    have hhalf : half = size / 2 := rfl
    cases hmiddle : p (base + half) with
    | true =>
      simp only [hmiddle, ↓reduceDIte, ↓reduceIte] at ih ⊢
      obtain ⟨hle, hiff⟩ := ih
      refine ⟨by omega, fun i hlow hhigh => ?_⟩
      by_cases hi : base + half ≤ i
      · exact hiff i hi (by omega)
      · have hin := (hiff (base + half) (Nat.le_refl _) (by omega)).mpr hmiddle
        exact iff_of_true (by omega) (hp i _ (by omega) hmiddle)
    | false =>
      simp only [hmiddle, Bool.false_eq_true, ↓reduceDIte, ↓reduceIte] at ih ⊢
      obtain ⟨hle, hiff⟩ := ih
      refine ⟨by omega, fun i hlow hhigh => ?_⟩
      by_cases hi : i < base + (size - half)
      · exact hiff i hlow hi
      · refine iff_of_false (by omega) fun htrue => ?_
        have hearlier := hp (base + half) i (by omega) htrue
        rw [hmiddle] at hearlier
        cases hearlier

/-- Written over a whole stretch, a waveform has the value that it has at each of its times. -/
theorem Waveform.evalAll_eq_map (w : Waveform) (ts : List Float) :
    w.evalAll ts = ts.map w.eval := by
  cases w with
  | const v => exact List.map_const'.symm
  | sine args start => rfl
  | ramp args start stop => rfl

namespace Signal

variable {s : Signal}

/-- What compiling makes: a waveform for each segment, and segments that end one after another, all
of them at ticks that can be counted. -/
structure Regular (s : Signal) : Prop where
  rate : 0 < s.rate
  paired : s.ends.length = s.waves.length
  nonempty : s.ends ≠ []
  increasing : s.ends.Pairwise (· < ·)
  counted : ∀ e ∈ s.ends, e < tickLimit

/-- Times whose positions on the grid never go down. Every position is at least a number: one that
is not compares with none, itself included. -/
def Ascending (s : Signal) (ts : List Float) : Prop :=
  ∀ i j (hij : i ≤ j) (hj : j < ts.length), ts[i] * s.rate ≤ ts[j] * s.rate

theorem slack_isFinite : slack.isFinite = true := by decide +kernel

theorem endsBy_eq_true {position : Float} {i : Nat} :
    s.endsBy position i = true ↔ ∃ e, s.ends[i]? = some e ∧ ticks e ≤ position + slack := by
  unfold endsBy
  cases s.ends[i]? <;> simp

theorem endsBy_mono {p q : Float} (hpq : p ≤ q) {i : Nat} (h : s.endsBy p i = true) :
    s.endsBy q i = true := by
  obtain ⟨e, he, hle⟩ := endsBy_eq_true.mp h
  exact endsBy_eq_true.mpr
    ⟨e, he, Binary64.le_trans hle (Binary64.add_mono slack_isFinite hpq)⟩

theorem eval_eq {t : Float} {k : Nat} (hk : k < s.waves.length)
    (ht : s.segmentAt (t * s.rate) = k) : s.eval t = s.waves[k].eval t := by
  simp only [eval, ht, List.getElem?_eq_getElem hk]

namespace Regular

/-- When a segment is over, so are those before it. -/
theorem endsBy_antitone (h : s.Regular) (position : Float) {i j : Nat} (hij : i ≤ j)
    (hj : s.endsBy position j = true) : s.endsBy position i = true := by
  obtain ⟨e, he, hle⟩ := endsBy_eq_true.mp hj
  obtain ⟨hlen, rfl⟩ := List.getElem?_eq_some_iff.mp he
  refine endsBy_eq_true.mpr ⟨s.ends[i], List.getElem?_eq_getElem (by omega), ?_⟩
  have hends : s.ends[i] ≤ s.ends[j] := by
    rcases Nat.eq_or_lt_of_le hij with rfl | hlt
    · exact Nat.le_refl _
    · exact Nat.le_of_lt (List.pairwise_iff_getElem.mp h.increasing i j (by omega) hlen hlt)
  exact Binary64.le_trans
    (Binary64.ticks_mono hends (h.counted _ (List.getElem_mem hlen))) hle

theorem segmentAt_lt (h : s.Regular) (position : Float) :
    s.segmentAt position < s.waves.length := by
  have hpos := List.length_pos_of_ne_nil h.nonempty
  have hpaired := h.paired
  unfold segmentAt
  omega

/-- A segment that is not the last is behind a position exactly when it has ended by then. -/
theorem lt_segmentAt_iff (h : s.Regular) (position : Float) {i : Nat}
    (hi : i + 1 < s.waves.length) :
    i < s.segmentAt position ↔ s.endsBy position i = true := by
  have hpaired := h.paired
  have hiff := (bisect_spec (fun _ _ => h.endsBy_antitone position) 0 s.ends.length).2 i
    (Nat.zero_le i) (by omega)
  rw [← hiff, segmentAt]
  omega

theorem segmentAt_mono (h : s.Regular) {p q : Float} (hpq : p ≤ q) :
    s.segmentAt p ≤ s.segmentAt q := by
  by_contra hlt
  have hlast := h.segmentAt_lt p
  have hended := (h.lt_segmentAt_iff p (i := s.segmentAt q) (by omega)).mp (by omega)
  have hlater := (h.lt_segmentAt_iff q (i := s.segmentAt q) (by omega)).mpr
    (endsBy_mono hpq hended)
  omega

end Regular

/-- As `sweep`, but there is no result when a segment is asked for that is not there. -/
def sweep? (rate : Float) : List Nat → List Waveform → List Float → Option (List Float)
  | _, [], _ => none
  | _, [w], ts => some (w.evalAll ts)
  | [], _ :: _ :: _, _ => none
  | e :: ends, w :: v :: waves, ts =>
    let inside (t : Float) : Bool := t * rate + slack < ticks e
    (sweep? rate ends (v :: waves) (ts.dropWhile inside)).map fun rest =>
      w.evalAll (ts.takeWhile inside) ++ rest

/-- As `fill`, but there is no result when a segment is asked for that is not there. -/
def fill? (s : Signal) (ts : List Float) : Option (List Float) :=
  match ts with
  | [] => some []
  | t :: _ =>
    let first := s.segmentAt (t * s.rate)
    sweep? s.rate (s.ends.drop first) (s.waves.drop first) ts

theorem sweep_eq_of_sweep? {rate : Float} {ends : List Nat} {waves : List Waveform}
    {ts xs : List Float} (h : sweep? rate ends waves ts = some xs) :
    sweep rate ends waves ts = xs := by
  induction ends generalizing waves ts xs with
  | nil =>
    rcases waves with _ | ⟨w, _ | ⟨v, waves⟩⟩
    · cases h
    · exact Option.some.inj h
    · cases h
  | cons e ends ih =>
    rcases waves with _ | ⟨w, _ | ⟨v, waves⟩⟩
    · cases h
    · exact Option.some.inj h
    · obtain ⟨rest, hrest, rfl⟩ := Option.map_eq_some_iff.mp h
      exact congrArg _ (ih hrest)

theorem fill_eq_of_fill? {ts xs : List Float} (h : s.fill? ts = some xs) : s.fill ts = xs := by
  cases ts with
  | nil => exact Option.some.inj h
  | cons t ts => exact sweep_eq_of_sweep? h

namespace Regular

/-- A time is inside a segment exactly when the segment has not ended by then. -/
theorem inside_iff (h : s.Regular) {k : Nat} (hk : k < s.ends.length) {t : Float}
    (ht : (t * s.rate).isNaN = false) :
    t * s.rate + slack < ticks s.ends[k] ↔ s.endsBy (t * s.rate) k = false := by
  have hticks := (Binary64.ticks_spec (h.counted _ (List.getElem_mem hk))).1
  have hsum := (Binary64.add_saturating slack_isFinite _ ht).1
  rw [← Binary64.not_le_iff hticks hsum, ← Bool.not_eq_true, endsBy_eq_true]
  simp [List.getElem?_eq_getElem hk]

/-- From segment `k` on, the sweep gives each time what a search gives it, provided that none of
them lies before that segment. -/
theorem sweep?_eq (h : s.Regular) {k : Nat} (hk : k < s.waves.length) {ts : List Float}
    (hnumbers : ∀ t ∈ ts, (t * s.rate).isNaN = false)
    (hsorted : ts.Pairwise fun a b => a * s.rate ≤ b * s.rate)
    (hfrom : ∀ t ∈ ts, k ≤ s.segmentAt (t * s.rate)) :
    sweep? s.rate (s.ends.drop k) (s.waves.drop k) ts = some (ts.map s.eval) := by
  induction hrest : s.waves.length - (k + 1) generalizing k ts with
  | zero =>
    -- The last segment takes every time that is left.
    have hdrop : s.waves.drop k = [s.waves[k]] := by
      rw [List.drop_eq_getElem_cons hk, List.drop_eq_nil_of_le (by omega)]
    have hlast : ts.map s.waves[k].eval = ts.map s.eval := List.map_congr_left fun t ht => by
      have hlow := hfrom t ht
      have hhigh := h.segmentAt_lt (t * s.rate)
      exact (eval_eq hk (by omega)).symm
    rw [hdrop, ← hlast, ← Waveform.evalAll_eq_map]
    cases s.ends.drop k <;> rfl
  | succ n ih =>
    have hpaired := h.paired
    have hk' : k + 1 < s.waves.length := by omega
    rw [List.drop_eq_getElem_cons hk, List.drop_eq_getElem_cons hk',
      List.drop_eq_getElem_cons (by omega : k < s.ends.length)]
    have hk'' : k < s.ends.length := by omega
    simp only [sweep?]
    generalize hinside : (fun t : Float => decide (t * s.rate + slack < ticks s.ends[k])) = inside
    have hiff : ∀ t ∈ ts, inside t = true ↔ s.segmentAt (t * s.rate) = k := fun t ht => by
      have hlow := hfrom t ht
      rw [← hinside, decide_eq_true_iff, h.inside_iff hk'' (hnumbers t ht), ← Bool.not_eq_true,
        ← h.lt_segmentAt_iff _ hk']
      omega
    have hhere : (ts.takeWhile inside).map s.waves[k].eval = (ts.takeWhile inside).map s.eval :=
      List.map_congr_left fun t ht => by
        have hmem := (List.takeWhile_prefix inside).subset ht
        exact (eval_eq hk ((hiff t hmem).mp (List.mem_takeWhile_imp ht))).symm
    have hsub : (ts.dropWhile inside).Sublist ts := (List.dropWhile_suffix inside).sublist
    have hkept : ∀ a b : Float, a * s.rate ≤ b * s.rate → inside b = true → inside a = true := by
      intro a b hab hb
      rw [← hinside, decide_eq_true_iff] at hb ⊢
      exact Binary64.lt_of_le_of_lt (Binary64.add_mono slack_isFinite hab) hb
    have hlater : ∀ t ∈ ts.dropWhile inside, k + 1 ≤ s.segmentAt (t * s.rate) := by
      intro t ht
      have hlow := hfrom t (hsub.subset ht)
      have hout := not_of_mem_dropWhile hkept hsorted t ht
      have hne : s.segmentAt (t * s.rate) ≠ k := fun heq => by
        rw [(hiff t (hsub.subset ht)).mpr heq] at hout
        cases hout
      omega
    have hrest' := ih hk' (fun t ht => hnumbers t (hsub.subset ht)) (hsorted.sublist hsub) hlater
      (by omega)
    rw [List.drop_eq_getElem_cons hk'] at hrest'
    rw [hrest', Option.map_some, Waveform.evalAll_eq_map, hhere, ← List.map_append,
      List.takeWhile_append_dropWhile]

/-- One pass gives every time what the search gives it. -/
theorem fill?_eq (h : s.Regular) {ts : List Float} (hts : s.Ascending ts) :
    s.fill? ts = some (ts.map s.eval) := by
  have hnumbers : ∀ t ∈ ts, (t * s.rate).isNaN = false := by
    intro t ht
    obtain ⟨i, hi, rfl⟩ := List.mem_iff_getElem.mp ht
    exact (Binary64.isNaN_of_le (hts i i (Nat.le_refl i) hi)).1
  have hsorted : ts.Pairwise fun a b => a * s.rate ≤ b * s.rate :=
    List.pairwise_iff_getElem.mpr fun i j _ hj hij => hts i j (Nat.le_of_lt hij) hj
  cases ts with
  | nil => rfl
  | cons t ts =>
    refine h.sweep?_eq (h.segmentAt_lt _) hnumbers hsorted fun u hu => ?_
    obtain ⟨i, hi, rfl⟩ := List.mem_iff_getElem.mp hu
    exact h.segmentAt_mono (hts 0 i (Nat.zero_le i) hi)

end Regular

end Signal

end Sequencer
