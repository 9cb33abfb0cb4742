import Sequencer.Card

namespace Sequencer

namespace Text

theorem isDecimalDigit_of_isDigit {c : Char} (h : c.isDigit = true) : isDecimalDigit c = true := by
  obtain ⟨hlo, hhi⟩ : 0x30 ≤ c.toNat ∧ c.toNat ≤ 0x39 := Char.isDigit_iff_toNat.mp h
  refine List.any_eq_true.mpr ⟨0x30, by simp [digitZeros], ?_⟩
  simp only [Bool.and_eq_true, decide_eq_true_eq]
  omega

theorem toList_toString (n : Nat) : (toString n).toList = Nat.toDigits 10 n := by
  rw [Nat.toString_eq_ofList_toDigits, String.toList_ofList]

/-- Numbers are written in digits. -/
theorem isDecimalDigit_of_mem {n : Nat} {c : Char} (h : c ∈ (toString n).toList) :
    isDecimalDigit c = true :=
  isDecimalDigit_of_isDigit <|
    Nat.isDigit_of_mem_toDigits (by decide) (by decide) (toList_toString n ▸ h)

theorem toString_inj {m n : Nat} (h : (toString m).toList = (toString n).toList) : m = n := by
  rw [toList_toString, toList_toString] at h
  rw [← m.ofDigitChars_ten_toDigits, h, n.ofDigitChars_ten_toDigits]

end Text

namespace Naming

/-- There is no digit at the front. -/
def Undigited (cs : List Char) : Prop := ∀ c ∈ cs.head?, Text.isDecimalDigit c = false

/-- Skipping a number leaves what comes after it. -/
theorem skipNumber?_toString (n : Nat) {rest : List Char} (h : Undigited rest) :
    skipNumber? ((toString n).toList ++ rest) = some rest := by
  have hdigits : ∀ c ∈ (toString n).toList, Text.isDecimalDigit c = true :=
    fun c hc => Text.isDecimalDigit_of_mem hc
  have hrest : rest.dropWhile Text.isDecimalDigit = rest := by
    cases rest with
    | nil => rfl
    | cons c rest => simp [h c rfl]
  have hskip : ((toString n).toList ++ rest).dropWhile Text.isDecimalDigit =
      rest.dropWhile Text.isDecimalDigit := List.dropWhile_append_of_pos hdigits
  have hne : (toString n).toList ≠ [] := by
    rw [Text.toList_toString]
    exact Nat.toDigits_ne_nil
  cases hcs : (toString n).toList with
  | nil => exact absurd hcs hne
  | cons c cs =>
    rw [hcs] at hskip hdigits
    rw [List.cons_append] at hskip ⊢
    simp only [skipNumber?, hdigits c List.mem_cons_self, hskip, hrest, ↓reduceIte]

theorem skipLabel?_append (label cs : List Char) : skipLabel? label (label ++ cs) = some cs := by
  simp [skipLabel?]

theorem skipNumbered?_toString (label : List Char) (n : Nat) {rest : List Char}
    (h : Undigited rest) :
    skipNumbered? label (label ++ ((toString n).toList ++ rest)) = some rest := by
  rw [skipNumbered?, skipLabel?_append, Option.bind_some, skipNumber?_toString n h]

theorem toList_analogName (id : Nat) :
    (analogName id).toList = ['a', 'o'] ++ ((toString id).toList ++ []) := by
  simp [analogName]

theorem toList_digitalName (port line : Nat) : (digitalName port line).toList =
    ['p', 'o', 'r', 't'] ++ ((toString port).toList ++
      (['/', 'l', 'i', 'n', 'e'] ++ ((toString line).toList ++ []))) := by
  simp [digitalName]

theorem undigited_nil : Undigited [] := by simp [Undigited]

/-- The separator ends the number of the port. -/
theorem undigited_line (cs : List Char) : Undigited (['/', 'l', 'i', 'n', 'e'] ++ cs) := by
  have hslash : Text.isDecimalDigit '/' = false := by decide
  simp [Undigited, hslash]

theorem isAnalog_analogName (id : Nat) : isAnalog (analogName id) = true := by
  rw [isAnalog, toList_analogName, skipNumbered?_toString _ id undigited_nil]
  rfl

theorem isDigital_digitalName (port line : Nat) : isDigital (digitalName port line) = true := by
  rw [isDigital, toList_digitalName, skipNumbered?_toString _ port (undigited_line _),
    Option.bind_some, skipNumbered?_toString _ line undigited_nil]
  rfl

theorem analogName_inj {id id' : Nat} (h : analogName id = analogName id') : id = id' := by
  have hlists := congrArg String.toList h
  simp only [toList_analogName, List.append_cancel_left_eq, List.append_cancel_right_eq] at hlists
  exact Text.toString_inj hlists

/-- The line is what is left once the port is skipped, and then the ports are seen to agree. -/
theorem digitalName_inj {port line port' line' : Nat}
    (h : digitalName port line = digitalName port' line') : port = port' ∧ line = line' := by
  have hlists := congrArg String.toList h
  rw [toList_digitalName, toList_digitalName] at hlists
  have hskipped := congrArg (skipNumbered? ['p', 'o', 'r', 't']) hlists
  rw [skipNumbered?_toString _ port (undigited_line _),
    skipNumbered?_toString _ port' (undigited_line _)] at hskipped
  have hrest := Option.some.inj hskipped
  rw [hrest] at hlists
  simp only [List.append_cancel_left_eq, List.append_cancel_right_eq] at hlists hrest
  exact ⟨Text.toString_inj hlists, Text.toString_inj hrest⟩

end Naming

/-- A flat index is split in one way only. -/
theorem portLine?_eq_some_iff {index linesPerPort port line : Nat} :
    portLine? index linesPerPort = some (port, line) ↔
      port * linesPerPort + line = index ∧ line < linesPerPort := by
  unfold portLine?
  split
  case isTrue h => simp [h]
  case isFalse h =>
    rw [Option.some.injEq, Prod.mk.injEq, Nat.div_mod_unique (Nat.pos_of_ne_zero h),
      Nat.mul_comm port, Nat.add_comm line]

/-- Where a channel is on its card. -/
inductive Address where
  | analog (id : Nat)
  | digital (port line : Nat)
  deriving DecidableEq

namespace Address

def kind : Address → CardKind
  | analog _ => .analog
  | digital .. => .digital

def name : Address → String
  | analog id => Naming.analogName id
  | digital port line => Naming.digitalName port line

theorem names_name (a : Address) : a.kind.names a.name = true := by
  cases a with
  | analog id => exact Naming.isAnalog_analogName id
  | digital port line => exact Naming.isDigital_digitalName port line

theorem name_injective : Function.Injective name := by
  intro a b h
  cases a with
  | analog id =>
    cases b with
    | analog id' => rw [Naming.analogName_inj h]
    | digital port line =>
      have hlists := congrArg String.toList h
      rw [name, name, Naming.toList_analogName, Naming.toList_digitalName] at hlists
      cases hlists
  | digital port line =>
    cases b with
    | analog id =>
      have hlists := congrArg String.toList h
      rw [name, name, Naming.toList_analogName, Naming.toList_digitalName] at hlists
      cases hlists
    | digital port' line' =>
      obtain ⟨rfl, rfl⟩ := Naming.digitalName_inj h
      rfl

end Address

namespace Card

variable {c : Card} {name : String}

/-- The card with a new channel. -/
def host (c : Card) (name : String) (line : Line) (registered : Float) : Card :=
  { c with channels := c.channels.put name { name, line, rate := c.rate, registered } }

/-- A name that fits the card is free unless it is taken. -/
theorem checkName_eq (h : c.kind.names name = true) : c.checkName name =
    if c.channels.contains name then .error (.duplicateChannel c.name name) else .ok () := by
  simp [checkName, h]

theorem checkName_eq_ok_iff : c.checkName name = .ok () ↔
    c.kind.names name = true ∧ c.channels.contains name = false := by
  unfold checkName
  cases c.kind.names name <;> cases c.channels.contains name <;> simp

/-- A channel comes in if it is of the kind of the card and has a name of its own that fits. -/
theorem addChannel_eq_ok_iff {line : Line} {registered : Float} {c' : Card} :
    c.addChannel name line registered = .ok c' ↔
      (line.isDigital = (c.kind == .digital) ∧ c.kind.names name = true ∧
        c.channels.contains name = false) ∧ c' = c.host name line registered := by
  rw [← checkName_eq_ok_iff]
  unfold addChannel
  by_cases hosted : line.isDigital = (c.kind == .digital)
  · cases hcheck : c.checkName name with
    | error e => simp [hosted, Except.map]
    | ok u => simp [hosted, Except.map, host, eq_comm]
  · simp [hosted]

end Card

end Sequencer
