import Mathlib.Data.List.Induction

namespace Sequencer.Sorted

variable {α : Type} (order : α → α → Ordering)

/-- Strictly sorted: no two members are the same in the order. -/
def Strictly (l : List α) : Prop := l.Pairwise fun a b => order a b = .lt

/-- Adds to a sorted list. -/
def insert (a : α) : List α → List α
  | [] => [a]
  | b :: rest =>
    match order a b with
    | .lt => a :: b :: rest
    | .eq => b :: rest
    | .gt => b :: insert a rest

/-- What is left of these when they come in one after the other. -/
def insertAll (l : List α) : List α := l.foldl (fun sorted a => insert order a sorted) []

theorem insertAll_concat (l : List α) (a : α) :
    insertAll order (l ++ [a]) = insert order a (insertAll order l) := by
  simp [insertAll]

variable {order} [Std.TransCmp order] {a b : α} {l : List α}

/-- What is before the first member of a sorted list is before all of them. -/
theorem before_all (h : Strictly order (b :: l)) (hab : order a b = .lt) :
    ∀ c ∈ b :: l, order a c = .lt :=
  List.forall_mem_cons.mpr ⟨hab, fun c hc =>
    Std.TransCmp.lt_trans hab ((List.pairwise_cons.mp h).1 c hc)⟩

theorem mem_insert (h : Strictly order l) :
    b ∈ insert order a l ↔ b ∈ l ∨ b = a ∧ ∀ c ∈ l, order a c ≠ .eq := by
  induction l with
  | nil => simp [insert]
  | cons d l ih =>
    have htail := ih (List.pairwise_cons.mp h).2
    simp only [insert]
    cases had : order a d with
    | lt =>
      have hnew : ∀ c ∈ d :: l, order a c ≠ .eq := fun c hc => by simp [before_all h had c hc]
      rw [List.mem_cons, or_comm, and_iff_left hnew]
    | eq => simp [had]
    | gt => simp [htail, had, or_assoc]

theorem Strictly.insert (h : Strictly order l) (a : α) : Strictly order (insert order a l) := by
  induction l with
  | nil => exact List.pairwise_singleton ..
  | cons b l ih =>
    obtain ⟨hfirst, hrest⟩ := List.pairwise_cons.mp h
    simp only [Sorted.insert]
    cases hab : order a b with
    | lt => exact List.pairwise_cons.mpr ⟨before_all h hab, h⟩
    | eq => exact h
    | gt =>
      refine List.pairwise_cons.mpr ⟨fun c hc => ?_, ih hrest⟩
      rcases (mem_insert hrest).mp hc with hc | ⟨rfl, -⟩
      · exact hfirst c hc
      · exact Std.OrientedCmp.gt_iff_lt.mp hab

theorem strictly_insertAll (l : List α) : Strictly order (insertAll order l) := by
  induction l using List.reverseRecOn with
  | nil => exact .nil
  | append_singleton l a ih =>
    rw [insertAll_concat]
    exact ih.insert a

/-- Of those that are the same in the order the first is there. -/
theorem mem_insertAll : b ∈ insertAll order l ↔ l.find? (order b · == .eq) = some b := by
  induction l using List.reverseRecOn generalizing b with
  | nil => simp [insertAll]
  | append_singleton l a ih =>
    -- A newcomer is new exactly if none like it came in before.
    have hnew : (∀ c ∈ insertAll order l, order a c ≠ .eq) ↔
        l.find? (order a · == .eq) = none := by
      constructor
      · intro h
        by_contra hsome
        obtain ⟨c, hc⟩ := Option.ne_none_iff_exists'.mp hsome
        have hac : order a c = .eq := by simpa using List.find?_some hc
        refine h c (ih.mpr ?_) hac
        simpa only [Std.TransCmp.congr_left hac] using hc
      · intro h c hc
        have hcl : c ∈ l := List.mem_of_find?_eq_some (ih.mp hc)
        simpa using List.find?_eq_none.mp h c hcl
    rw [insertAll_concat, mem_insert (strictly_insertAll l), ih, hnew, List.find?_append]
    cases hb : l.find? (order b · == .eq) with
    | none =>
      constructor
      · rintro (hnone | ⟨rfl, -⟩)
        · cases hnone
        · simp [Std.ReflCmp.compare_self]
      · intro hlast
        obtain rfl : b = a := by simpa using List.mem_of_find?_eq_some hlast
        exact .inr ⟨rfl, hb⟩
    | some c =>
      have hold : ¬(b = a ∧ l.find? (order a · == .eq) = none) := by
        rintro ⟨rfl, hnone⟩
        simp [hb] at hnone
      rw [or_iff_left hold, Option.some_or]

end Sequencer.Sorted
