import Sequencer.Demo

/-- The first argument names the least severity to show: `info`, which is the default, `warn`, `error`,
or `off` for none. -/
def main (args : List String) : IO UInt32 := do
  let (lines, status) := Sequencer.Demo.output (args.headD "info")
  lines.forM IO.println
  return status.toUInt32
