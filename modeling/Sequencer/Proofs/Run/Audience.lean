import Mathlib.Data.List.Infix
import Sequencer.Run.Worker

namespace Sequencer

/-- What the reader for `card` gets who has seen `viewed` commands, and how many it has seen then;
nothing while it has to wait. -/
def Bulletin.receive (card : String) (viewed : Nat) (b : Bulletin) :
    Option (Except Error Command × Nat) :=
  match b.read viewed with
  | .nothing => none
  | .command c => some (.ok c, viewed + 1)
  | .missed => some (.error (.worker card (.missedCommands viewed b.posted)), viewed)

/-- Workers are such readers. -/
theorem Worker.listen_eq (w : Worker) (s : Stage) : w.listen s =
    (s.bulletin.receive w.card w.viewed).map fun
      | (.ok c, _) => (w.take c, s)
      | (.error e, _) => ({ w with phase := .ended }, s.note (.workerStopped w.card e)) := by
  unfold listen Bulletin.receive
  cases s.bulletin.read w.viewed <;> rfl

/-- A bulletin, and how many commands each of its readers has seen. -/
structure Audience where
  bulletin : Bulletin := {}
  readers : List Nat := []

namespace Audience

/-- A reader asks for the next command. -/
def ask (i : Nat) (card : String) (a : Audience) : Option (Except Error Command × Audience) :=
  a.readers[i]?.bind fun viewed =>
    (a.bulletin.receive card viewed).map fun (result, seen) =>
      (result, { a with readers := a.readers.set i seen })

inductive Use where
  | post (c : Command)
  /-- One more reader comes. -/
  | join
  | read (i : Nat) (card : String)

namespace Use

/-- A reader that has to wait leaves everything as it is. -/
def run (u : Use) (a : Audience) : Audience :=
  match u with
  | post c => { a with bulletin := a.bulletin.post c }
  | join => { a with readers := a.readers ++ [a.bulletin.posted] }
  | read i card =>
    match a.ask i card with
    | some (_, a') => a'
    | none => a

def post? : Use → Option Command
  | post c => some c
  | _ => none

def joins : Use → Bool
  | join => true
  | _ => false

/-- The command that goes to reader `i`. -/
def delivered? (i : Nat) (u : Use) (a : Audience) : Option Command :=
  match u with
  | read j card => if j = i then (a.ask j card).bind (·.1.toOption) else none
  | _ => none

end Use

/-- A new bulletin and its readers after all this. -/
def after (us : List Use) : Audience := us.foldl (fun a u => u.run a) {}

/-- All commands so far, in order. -/
def posts (us : List Use) : List Command := us.filterMap Use.post?

/-- All that reader `i` was given, in order. -/
def receivedFrom (i : Nat) (a : Audience) : List Use → List Command
  | [] => []
  | u :: us => (u.delivered? i a).toList ++ receivedFrom i (u.run a) us

def received (i : Nat) (us : List Use) : List Command := receivedFrom i {} us

/-- The bulletin shows the last of these commands. -/
structure Shows (a : Audience) (log : List Command) : Prop where
  posted : a.bulletin.posted = log.length
  latest : ∀ c ∈ log.getLast?, a.bulletin.latest = c

/-- Reader `i` came after `m` of these commands and was given `got` since. -/
structure Follows (a : Audience) (log : List Command) (i m : Nat) (got : List Command) : Prop
    extends a.Shows log where
  viewed : a.readers[i]? = some (m + got.length)
  joined : m ≤ log.length
  inOrder : got <+: log.drop m

variable {a : Audience} {log got : List Command} {i m : Nat} {us : List Use}

theorem posts_append (us vs : List Use) : posts (us ++ vs) = posts us ++ posts vs :=
  List.filterMap_append ..

theorem posts_cons (u : Use) (us : List Use) : posts (u :: us) = u.post?.toList ++ posts us := by
  cases u <;> rfl

theorem after_append (us vs : List Use) :
    after (us ++ vs) = vs.foldl (fun a u => u.run a) (after us) := List.foldl_append

theorem run_read (i : Nat) (card : String) (a : Audience) : (Use.read i card).run a =
    match a.ask i card with
    | some (_, a') => a'
    | none => a := rfl

/-- Reading is between the bulletin and one reader. -/
theorem read_frame (i : Nat) (card : String) (a : Audience) :
    ((Use.read i card).run a).bulletin = a.bulletin ∧
      ((Use.read i card).run a).readers.length = a.readers.length ∧
      ∀ j, j ≠ i → ((Use.read i card).run a).readers[j]? = a.readers[j]? := by
  rw [run_read]
  cases hask : a.ask i card with
  | none => exact ⟨rfl, rfl, fun _ _ => rfl⟩
  | some r =>
    obtain ⟨viewed, -, h⟩ := Option.bind_eq_some_iff.mp hask
    obtain ⟨received, -, rfl⟩ := Option.map_eq_some_iff.mp h
    exact ⟨rfl, List.length_set, fun j hj => List.getElem?_set_ne hj.symm⟩

/-- Nothing goes to a reader who would get nothing by asking. -/
theorem delivered?_eq_none (u : Use)
    (h : ∀ card, (a.ask i card).bind (·.1.toOption) = none) : u.delivered? i a = none := by
  cases u with
  | post c => rfl
  | join => rfl
  | read j card =>
    by_cases hji : j = i
    · subst hji
      exact (if_pos rfl).trans (h card)
    · exact if_neg hji

/-- Only what is posted comes to the bulletin. -/
theorem Shows.run (h : a.Shows log) (u : Use) : (u.run a).Shows (log ++ u.post?.toList) := by
  cases u with
  | post c =>
    exact ⟨by simp [Use.run, Bulletin.post, Use.post?, h.posted],
      by simp [Use.run, Bulletin.post, Use.post?]⟩
  | join =>
    change Shows _ (log ++ [])
    rw [List.append_nil]
    exact ⟨h.posted, h.latest⟩
  | read j card =>
    change Shows _ (log ++ [])
    obtain ⟨hbulletin, -⟩ := read_frame j card a
    rw [List.append_nil]
    exact ⟨hbulletin ▸ h.posted, hbulletin ▸ h.latest⟩

namespace Follows

/-- Who is one command behind gets the one on the bulletin. -/
theorem ask_eq (h : a.Follows log i m got) (card : String) : a.ask i card =
    if log.length = m + got.length then none
    else if log.length = m + got.length + 1 then
      some (.ok a.bulletin.latest, { a with readers := a.readers.set i (m + got.length + 1) })
    else some (.error (.worker card (.missedCommands (m + got.length) log.length)), a) := by
  have hsame : a.readers.set i (m + got.length) = a.readers := by
    obtain ⟨hi, hget⟩ := List.getElem?_eq_some_iff.mp h.viewed
    rw [← hget, List.set_getElem_self]
  simp only [ask, h.viewed, Option.bind_some, Bulletin.receive, Bulletin.read, h.posted]
  split_ifs
  · rfl
  · rfl
  · simp only [Option.map_some, hsame]

/-- No reader has seen more than was posted. -/
theorem le (h : a.Follows log i m got) : m + got.length ≤ log.length := by
  have hlen := h.inOrder.length_le
  have hjoined := h.joined
  rw [List.length_drop] at hlen
  omega

/-- To who is one command behind the bulletin shows the very next one. -/
theorem next (h : a.Follows log i m got) (behind : log.length = m + got.length + 1) :
    log.drop m = got ++ [a.bulletin.latest] := by
  obtain ⟨rest, hrest⟩ := h.inOrder
  have hlen : rest.length = 1 := by
    have hcount := congrArg List.length hrest
    rw [List.length_append, List.length_drop] at hcount
    omega
  obtain ⟨c, rfl⟩ := List.length_eq_one_iff.mp hlen
  have hlast : log.getLast? = some c := by
    rw [← List.take_append_drop m log, ← hrest, ← List.append_assoc, List.getLast?_concat]
  rw [← hrest, h.latest c hlast]

theorem read (h : a.Follows log i m got) (card : String) : ((Use.read i card).run a).Follows log i m
    (got ++ ((Use.read i card).delivered? i a).toList) := by
  have hi := (List.getElem?_eq_some_iff.mp h.viewed).1
  rw [run_read]
  simp only [Use.delivered?, h.ask_eq]
  split_ifs with hall hbehind
  · simpa using h
  · refine ⟨⟨h.posted, h.latest⟩, ?_, h.joined, ?_⟩
    · simp [hi, Except.toOption, Nat.add_assoc]
    · simp [h.next hbehind, Except.toOption]
  · simpa [Except.toOption] using h

/-- What the others read is nothing to a reader. -/
theorem read_other (h : a.Follows log i m got) {j : Nat} (hj : j ≠ i) (card : String) :
    ((Use.read j card).run a).Follows log i m got := by
  obtain ⟨hbulletin, -, hothers⟩ := read_frame j card a
  exact ⟨⟨hbulletin ▸ h.posted, hbulletin ▸ h.latest⟩, (hothers i hj.symm).trans h.viewed,
    h.joined, h.inOrder⟩

theorem run (h : a.Follows log i m got) (u : Use) :
    (u.run a).Follows (log ++ u.post?.toList) i m (got ++ (u.delivered? i a).toList) := by
  cases u with
  | post c =>
    have hjoined := h.joined
    refine ⟨h.toShows.run _, by simpa [Use.run, Use.delivered?] using h.viewed, ?_, ?_⟩
    · rw [List.length_append]
      omega
    · rw [List.drop_append_of_le_length hjoined]
      simpa [Use.delivered?] using h.inOrder.trans (List.prefix_append ..)
  | join =>
    have hi := (List.getElem?_eq_some_iff.mp h.viewed).1
    change Follows _ (log ++ []) _ _ (got ++ [])
    rw [List.append_nil, List.append_nil]
    refine ⟨⟨h.posted, h.latest⟩, ?_, h.joined, h.inOrder⟩
    exact (List.getElem?_append_left hi).trans h.viewed
  | read j card =>
    change Follows _ (log ++ []) _ _ _
    rw [List.append_nil]
    by_cases hj : j = i
    · subst hj
      exact h.read card
    · have hnothing : (Use.read j card).delivered? i a = none := if_neg hj
      rw [hnothing, Option.toList_none, List.append_nil]
      exact h.read_other hj card

theorem runs (h : a.Follows log i m got) (us : List Use) :
    (us.foldl (fun a u => u.run a) a).Follows (log ++ posts us) i m
      (got ++ receivedFrom i a us) := by
  induction us generalizing a log got with
  | nil => simpa [posts, receivedFrom] using h
  | cons u us ih =>
    have hrest := ih (h.run u)
    rw [List.append_assoc, List.append_assoc] at hrest
    rwa [posts_cons]

/-- The commands given are the ones posted, in their places. -/
theorem getElem?_posted (h : a.Follows log i m got) {j : Nat} {c : Command}
    (hj : got[j]? = some c) : log[m + j]? = some c := by
  obtain ⟨rest, hrest⟩ := h.inOrder
  have hlt := (List.getElem?_eq_some_iff.mp hj).1
  rw [← List.getElem?_drop, ← hrest, List.getElem?_append_left hlt, hj]

theorem ask_eq_none_iff (h : a.Follows log i m got) (card : String) :
    a.ask i card = none ↔ log.length = m + got.length := by
  rw [h.ask_eq]
  split_ifs with hall hbehind <;> simp [hall]

/-- What is given is the first command that the reader has not seen. -/
theorem getElem?_asked (h : a.Follows log i m got) {card : String} {c : Command} {a' : Audience}
    (hask : a.ask i card = some (.ok c, a')) :
    log.length = m + got.length + 1 ∧ log[m + got.length]? = some c := by
  rw [h.ask_eq] at hask
  split_ifs at hask with hall hbehind
  · cases hask
    refine ⟨hbehind, ?_⟩
    rw [← List.getElem?_drop, h.next hbehind, List.getElem?_concat_length]
  · cases hask

/-- A reader who lost a command stays where it is. -/
theorem ask_lost (h : a.Follows log i m got) (lost : m + got.length + 2 ≤ log.length)
    (card : String) : a.ask i card =
      some (.error (.worker card (.missedCommands (m + got.length) log.length)), a) := by
  rw [h.ask_eq, if_neg (by omega), if_neg (by omega)]

theorem receivedFrom_lost (h : a.Follows log i m got) (lost : m + got.length + 2 ≤ log.length) :
    receivedFrom i a us = [] := by
  induction us generalizing a log with
  | nil => rfl
  | cons u us ih =>
    have hnothing : u.delivered? i a = none :=
      delivered?_eq_none u fun card => by rw [h.ask_lost lost]; rfl
    have hnext := h.run u
    rw [hnothing, Option.toList_none, List.append_nil] at hnext
    have hrest := ih hnext (by rw [List.length_append]; omega)
    rw [receivedFrom, hnothing, hrest]
    rfl

end Follows

theorem shows_after (us : List Use) : (after us).Shows (posts us) := by
  induction us using List.reverseRecOn with
  | nil => exact ⟨rfl, fun c hc => nomatch hc⟩
  | append_singleton us u ih =>
    rw [posts_append, after_append, posts_cons]
    simpa [posts] using ih.run u

theorem readers_run (u : Use) (a : Audience) :
    (u.run a).readers.length = a.readers.length + [u].countP Use.joins := by
  cases u with
  | post c => rfl
  | join => simp [Use.run, Use.joins]
  | read j card => exact (read_frame j card a).2.1

theorem readers_after (us : List Use) : (after us).readers.length = us.countP Use.joins := by
  induction us using List.reverseRecOn with
  | nil => rfl
  | append_singleton us u ih =>
    rw [after_append, List.countP_append, ← ih]
    exact readers_run u (after us)

theorem receivedFrom_append (us vs : List Use) : receivedFrom i a (us ++ vs) =
    receivedFrom i a us ++ receivedFrom i (us.foldl (fun a u => u.run a) a) vs := by
  induction us generalizing a with
  | nil => rfl
  | cons u us ih => simp [receivedFrom, ih]

/-- Before it comes, a reader is given nothing. -/
theorem receivedFrom_of_absent (h : a.readers.length + us.countP Use.joins ≤ i) :
    receivedFrom i a us = [] := by
  induction us generalizing a with
  | nil => rfl
  | cons u us ih =>
    have hsplit : ([u] ++ us).countP Use.joins = [u].countP Use.joins + us.countP Use.joins :=
      List.countP_append
    rw [List.singleton_append] at hsplit
    have hcount := readers_run u a
    have hnobody : a.readers[i]? = none := List.getElem?_eq_none (by omega)
    have hnothing : u.delivered? i a = none :=
      delivered?_eq_none u fun card => by rw [ask, hnobody]; rfl
    rw [receivedFrom, hnothing, ih (by omega)]
    rfl

theorem follows_joined (before rest : List Use) :
    (after (before ++ .join :: rest)).Follows (posts (before ++ .join :: rest))
      (before.countP Use.joins) (posts before).length
      (received (before.countP Use.joins) (before ++ .join :: rest)) := by
  have hshows := shows_after before
  have hreaders := readers_after before
  have hjoin : (Use.join.run (after before)).Follows (posts before) (before.countP Use.joins)
      (posts before).length [] := by
    refine ⟨⟨hshows.posted, hshows.latest⟩, ?_, Nat.le_refl _, ⟨_, rfl⟩⟩
    simp [Use.run, ← hreaders, hshows.posted]
  have habsent : receivedFrom (before.countP Use.joins) {} before = [] :=
    receivedFrom_of_absent (by simp)
  have hruns := hjoin.runs rest
  rw [List.nil_append] at hruns
  rwa [after_append, posts_append, posts_cons, received, receivedFrom_append, habsent]

/-- Whatever is posted and read, by however many readers: a reader is given the commands posted
since it came, each once and in order. It waits exactly if it has seen all of them and gets the next
one exactly if it is one behind. A reader that falls further behind is told so, then and whenever it
asks again, and nothing changes by that. -/
theorem reads_follow_posts (before rest : List Use) :
    let us := before ++ .join :: rest
    let i := before.countP Use.joins
    let m := (posts before).length
    let got := received i us
    (∀ j c, got[j]? = some c → (posts us)[m + j]? = some c) ∧
    (∀ card, (after us).ask i card = none ↔ (posts us).length = m + got.length) ∧
    (∀ card, (∃ c a, (after us).ask i card = some (.ok c, a)) ↔
      (posts us).length = m + got.length + 1) ∧
    (∀ card c a, (after us).ask i card = some (.ok c, a) → (posts us)[m + got.length]? = some c) ∧
    (∀ card, (∃ e a, (after us).ask i card = some (.error e, a)) ↔
      m + got.length + 2 ≤ (posts us).length) ∧
    (m + got.length + 2 ≤ (posts us).length → ∀ later card, (after (us ++ later)).ask i card =
      some (.error (.worker card (.missedCommands (m + got.length) (posts (us ++ later)).length)),
        after (us ++ later))) := by
  intro us i m got
  have h : (after us).Follows (posts us) i m got := follows_joined before rest
  have hle := h.le
  refine ⟨fun j c => h.getElem?_posted, h.ask_eq_none_iff, fun card => ⟨?_, fun hbehind => ?_⟩,
    fun card c a hask => (h.getElem?_asked hask).2, fun card => ⟨?_, fun lost => ?_⟩,
    fun lost later card => ?_⟩
  · rintro ⟨c, a, hask⟩
    exact (h.getElem?_asked hask).1
  · exact ⟨_, _, by rw [h.ask_eq, if_neg (by omega), if_pos hbehind]⟩
  · rintro ⟨e, a, hask⟩
    rw [h.ask_eq] at hask
    split_ifs at hask
    · cases hask
    · omega
  · exact ⟨_, _, h.ask_lost lost card⟩
  · have hlater := h.runs later
    rw [h.receivedFrom_lost lost, List.append_nil, ← after_append, ← posts_append] at hlater
    refine hlater.ask_lost ?_ card
    rw [posts_append, List.length_append]
    omega

/-- One reader keeps up. The other one has not seen the first command when the second is posted. -/
example :
    let us : List Use := [.join, .join, .post (.stream true 0), .read 0 "PXI1Slot3", .post .close,
      .read 1 "PXI1Slot4", .read 0 "PXI1Slot3", .read 1 "PXI1Slot4"]
    received 0 us = [.stream true 0, .close] ∧ received 1 us = [] := ⟨rfl, rfl⟩

end Audience

end Sequencer
