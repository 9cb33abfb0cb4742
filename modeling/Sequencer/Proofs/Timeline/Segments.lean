import Mathlib.Data.List.Chain
import Sequencer.Timeline.Compile

namespace Sequencer

/-- The waveforms are the same, or compare as equal. -/
def Waveform.Agrees (w v : Waveform) : Prop := w = v ∨ (w == v) = true

/-- The segments take up the ticks from `first` up to and without `stop`, each of them at least one,
and on every tick `k` of a segment its waveform is one that `p k` allows. -/
inductive Plays (p : Nat → Waveform → Prop) (stop : Nat) : Nat → List Segment → Prop
  | done : Plays p stop stop []
  | segment {first : Nat} {s : Segment} {rest : List Segment} (room : first < s.stop)
      (wave : ∀ k, first ≤ k → k < s.stop → p k s.wave) (more : Plays p stop s.stop rest) :
      Plays p stop first (s :: rest)

namespace Plays

variable {p q : Nat → Waveform → Prop} {first stop : Nat} {ss : List Segment}

theorem le (h : Plays p stop first ss) : first ≤ stop := by
  induction h with
  | done => exact Nat.le_refl _
  | segment room wave more ih => exact Nat.le_trans (Nat.le_of_lt room) ih

theorem mono (h : Plays p stop first ss)
    (hpq : ∀ k w, first ≤ k → k < stop → p k w → q k w) : Plays q stop first ss := by
  induction h with
  | done => exact .done
  | segment room wave more ih =>
    refine .segment room (fun k hlo hhi => ?_) (ih fun k w hk => hpq k w (by omega))
    exact hpq k _ hlo (Nat.lt_of_lt_of_le hhi more.le) (wave k hlo hhi)

theorem stop_le (h : Plays p stop first ss) : ∀ s ∈ ss, s.stop ≤ stop := by
  induction h with
  | done => simp
  | segment room wave more ih => exact List.forall_mem_cons.mpr ⟨more.le, ih⟩

/-- A stretch without ticks needs no padding, any other is one segment. -/
theorem pad {held : Float} {start : Nat} (hle : first ≤ start)
    (hw : ∀ k, first ≤ k → k < start → p k (.const held)) (h : Plays p stop start ss) :
    Plays p stop first (Timeline.padding held first start ++ ss) := by
  unfold Timeline.padding
  split
  · rename_i hlt
    exact .segment hlt hw h
  · have he : first = start := by omega
    exact he ▸ h

theorem wave_at (h : Plays p stop first ss) {i k : Nat} {s : Segment} (hi : ss[i]? = some s)
    (hlo : (first :: ss.map (·.stop)).getD i 0 ≤ k) (hhi : k < s.stop) : p k s.wave := by
  induction h generalizing i with
  | done => simp at hi
  | segment room wave more ih =>
    cases i with
    | zero =>
      obtain rfl : _ = s := by simpa using hi
      exact wave k (by simpa using hlo) hhi
    | succ i => exact ih (by simpa using hi) (by simpa using hlo)

/-- Every tick falls into a segment. -/
theorem exists_segment (h : Plays p stop first ss) {k : Nat} (hlo : first ≤ k) (hhi : k < stop) :
    ∃ i s, ss[i]? = some s ∧ (first :: ss.map (·.stop)).getD i 0 ≤ k ∧ k < s.stop := by
  induction h with
  | done => omega
  | @segment first s rest room wave more ih =>
    by_cases hk : k < s.stop
    · exact ⟨0, s, by simp, by simpa using hlo, hk⟩
    · obtain ⟨i, r, hi, hr, hlt⟩ := ih (by omega)
      exact ⟨i + 1, r, by simpa using hi, by simpa using hr, hlt⟩

theorem stops_increase (h : Plays p stop first ss) :
    (first :: ss.map (·.stop)).Pairwise (· < ·) := by
  induction h with
  | done => simp
  | @segment first s rest room wave more ih =>
    simp only [List.map_cons, List.pairwise_cons] at ih ⊢
    refine ⟨?_, ih⟩
    intro e he
    rcases List.mem_cons.mp he with rfl | he
    · exact room
    · exact Nat.lt_trans room (ih.1 e he)

theorem last_stop (h : Plays p stop first ss) (hlt : first < stop) :
    (ss.map (·.stop)).getLast? = some stop := by
  have hall : (first :: ss.map (·.stop)).getLast? = some stop := by
    clear hlt
    induction h with
    | done => simp
    | segment room wave more ih => simpa using ih
  cases h with
  | done => omega
  | segment room wave more => simpa using hall

end Plays

namespace Timeline

variable {p q : Nat → Waveform → Prop} {stop : Nat}

/-- The kept waveform stands for every waveform it swallows: it was compared with each of them. -/
theorem mergeFrom_plays {s : Segment} {rest : List Segment} {first : Nat} (room : first < s.stop)
    (wave : ∀ k, first ≤ k → k < s.stop → q k s.wave) (more : Plays p stop s.stop rest)
    (hpq : ∀ k w v, p k v → w.Agrees v → q k w) : Plays q stop first (mergeFrom s rest) := by
  induction rest generalizing s first with
  | nil =>
    cases more
    exact .segment room wave .done
  | cons next rest ih =>
    cases more with
    | segment nextRoom nextWave nextMore =>
    simp only [mergeFrom]
    split
    · rename_i heq
      refine ih (Nat.lt_trans room nextRoom) (fun k hlo hhi => ?_) nextMore
      by_cases hk : k < s.stop
      · exact wave k hlo hk
      · exact hpq k _ _ (nextWave k (by omega) hhi) (.inr heq)
    · refine .segment room wave (ih nextRoom (fun k hlo hhi => ?_) nextMore)
      exact hpq k _ _ (nextWave k hlo hhi) (.inl rfl)

theorem merge_plays {ss : List Segment} {first : Nat} (h : Plays p stop first ss)
    (hpq : ∀ k w v, p k v → w.Agrees v → q k w) : Plays q stop first (merge ss) := by
  cases h with
  | done => exact .done
  | segment room wave more =>
    exact mergeFrom_plays room (fun k hlo hhi => hpq k _ _ (wave k hlo hhi) (.inl rfl)) more hpq

theorem head_mergeFrom (s : Segment) (rest : List Segment) :
    ∃ till more, mergeFrom s rest = ⟨till, s.wave⟩ :: more := by
  induction rest generalizing s with
  | nil => exact ⟨s.stop, [], rfl⟩
  | cons next rest ih =>
    simp only [mergeFrom]
    split
    · exact ih ⟨next.stop, s.wave⟩
    · exact ⟨s.stop, mergeFrom next rest, rfl⟩

theorem mergeFrom_chain (s : Segment) (rest : List Segment) :
    (mergeFrom s rest).IsChain fun a b => (a.wave == b.wave) = false := by
  induction rest generalizing s with
  | nil => simp [mergeFrom]
  | cons next rest ih =>
    simp only [mergeFrom]
    split
    · exact ih ⟨next.stop, s.wave⟩
    · rename_i hne
      obtain ⟨till, more, he⟩ := head_mergeFrom next rest
      have hrest := ih next
      rw [he] at hrest ⊢
      exact List.isChain_cons_cons.mpr ⟨by simpa using hne, hrest⟩

/-- No two neighbours of a merged list compare as equal. -/
theorem merge_chain (ss : List Segment) :
    (merge ss).IsChain fun a b => (a.wave == b.wave) = false := by
  cases ss with
  | nil => simp [merge]
  | cons s rest => exact mergeFrom_chain s rest

end Timeline

end Sequencer
