import Sequencer.Card

namespace Sequencer

open Decimal (plain)
open Text (quotedList)

namespace SyncSettings

def sampleClockText (s : SyncSettings) : String :=
  match s.sampleClockIn, s.sampleClockOut with
  | some source, _ => "imported from " ++ source
  | none, some target => "onboard, exported to " ++ target
  | none, none => "onboard"

def startTrigText (s : SyncSettings) : String :=
  match s.startTrigIn, s.startTrigOut with
  | some source, _ => "imported from " ++ source
  | none, some target => "exported to " ++ target
  | none, none => "software start"

def refClockText (s : SyncSettings) : String :=
  match s.refClockIn with
  | some source =>
    "imported from " ++ source ++ " at " ++ plain (s.refClockRate.getD 1e7) ++ " Hz"
  | none => "onboard"

end SyncSettings

def Card.summary (c : Card) : String :=
  c.kind.text ++ " card " ++ c.name ++ " (" ++ c.label ++ ")\n\tsamp_rate: " ++ plain c.rate ++
    " Sa/s\n\tsample clock: " ++ c.sync.sampleClockText ++ "\n\tstart trigger: " ++
    c.sync.startTrigText ++ "\n\treference clock: " ++ c.sync.refClockText ++ "\n\tchannels: " ++
    quotedList c.channels.names

end Sequencer
