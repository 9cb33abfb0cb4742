import Sequencer.Decimal.Shortest

namespace Sequencer.Decimal

/-- Which leading powers of ten are written without an exponent, and whether a whole number keeps
`.0`. -/
structure Layout where
  positional : Int → Bool
  pointZero : Bool

/-- Messages never use an exponent, and whole numbers have no point. -/
def plainLayout : Layout := ⟨fun _ => true, false⟩

/-- Values use an exponent below `1e-4` and from `1e16` on. -/
def markedLayout : Layout := ⟨fun p => -4 ≤ p && p < 16, true⟩

def zeros (n : Nat) : List Char := List.replicate n '0'

/-- `ds * 10 ^ k` with the point set. -/
def withPoint (pointZero : Bool) (ds : List Char) : Int → List Char
  | .ofNat k => ds ++ zeros k ++ if pointZero then ['.', '0'] else []
  | .negSucc k =>
    let places := k + 1
    if places < ds.length then
      ds.take (ds.length - places) ++ '.' :: ds.drop (ds.length - places)
    else '0' :: '.' :: zeros (places - ds.length) ++ ds

/-- One digit, the others behind a point, and the power of ten of the first. -/
def withExponent (ds : List Char) (k : Int) : List Char :=
  let power := toString (k + ds.length - 1)
  match ds with
  | [] => []
  | [d] => d :: 'e' :: power.toList
  | d :: rest => d :: '.' :: rest ++ 'e' :: power.toList

def Layout.magnitude (l : Layout) (s : Scientific) : List Char :=
  let ds := Nat.toDigits 10 s.digits
  let kept := (ds.reverse.dropWhile (· == '0')).reverse
  let k := s.exponent + (ds.length - kept.length : Nat)
  if l.positional (k + kept.length - 1) then withPoint l.pointZero kept k else withExponent kept k

def signed (negative : Bool) (cs : List Char) : String :=
  String.ofList (if negative then '-' :: cs else cs)

def Layout.write (l : Layout) (x : Float) : String :=
  match Reading.ofFloat x with
  | .nan => "NaN"
  | .infinite negative => signed negative ['i', 'n', 'f']
  | .finite negative 0 _ => signed negative (withPoint l.pointZero ['0'] 0)
  | .finite negative (m + 1) e => signed negative (l.magnitude (shortest (m + 1) e))

/-- The form used inside messages. -/
def plain (x : Float) : String := plainLayout.write x

/-- The form used for values. -/
def marked (x : Float) : String := markedLayout.write x

/-- Nine places behind the point; a half goes to the even neighbour. -/
def nanos (r : Ratio) : List Char :=
  let ds := Nat.toDigits 10 (r.shifted (-9)).roundHalfEven
  withPoint false (zeros (10 - ds.length) ++ ds) (-9)

/-- Nine significant digits and an exponent. -/
def nineDigits (r : Ratio) : List Char :=
  let top := r.leading
  let ds := Nat.toDigits 10 (r.shifted (top - 8)).roundHalfEven
  withExponent (ds.take 9) (top - 8 + (ds.length - 9 : Nat))

/-- The form of sampled values: it hides the last bits of a sine. -/
def rounded (x : Float) : String :=
  match Reading.ofFloat x with
  | .finite negative m e =>
    let r := Ratio.scaled m e
    if r.num < 1000000 * r.den then
      let ds := nanos r
      signed (negative && ds.any (fun c => c != '0' && c != '.')) ds
    else signed negative (nineDigits r)
  | _ => marked x

end Sequencer.Decimal
