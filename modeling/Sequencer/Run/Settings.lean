import Sequencer.Json.Record

namespace Sequencer

open Json (Value orElse)

structure RunSettings where
  /-- Sample data per buffer write, in milliseconds. -/
  bufferMs : Float := 50
  repetitions : Nat := 1

def RunSettings.read? (v : Value) : Option RunSettings := do
  let [b, n] ← v.fields? ["bufsize_ms", "nreps"] | none
  let standard : RunSettings := {}
  some ⟨← orElse standard.bufferMs Value.float? b, ← orElse standard.repetitions Value.count? n⟩

end Sequencer
