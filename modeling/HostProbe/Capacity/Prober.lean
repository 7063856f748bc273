import HostProbe.Capacity.Report
import HostProbe.Dialogue
import HostProbe.Host.Limit
import HostProbe.Interval
import HostProbe.Text.Padding

/-!
The search for the longest script a host accepts. A script is a run of filler, a statement that
makes any run of filler valid, and the body. The shortest script is tried first; if it is
accepted, the offset into the filler is bisected. The dialogue ends because the interval gets
narrower with every answer.
-/

namespace HostProbe.Capacity

def fillerLength : Nat := 9996

/-- A run of tildes before `1;` is a valid expression statement. -/
def filler : String := Text.padding "~" fillerLength

/-- Offsets -1 and 9997 are never executed: they stand for "rejected" and "accepted". -/
def searchInterval : Interval := ⟨-1, 9997⟩

def target : String := "vkprobe::probe::capacity"

structure Prober where
  body : String
  deriving DecidableEq, Repr

namespace Prober

def standard : Prober := ⟨"return true;"⟩

def minimalScript (p : Prober) : String := "1;" ++ p.body

def bodyLength (p : Prober) : Nat := p.body.length

/-- The script whose filler starts at the byte `offset`; from the end of the filler on, no
filler. -/
def candidate (p : Prober) (offset : Nat) : String :=
  String.Pos.Raw.extract filler ⟨min offset filler.utf8ByteSize⟩ filler.rawEndPos ++
    p.minimalScript

/-- An offset read as an unsigned word of 64 bits. -/
def wordOfOffset (offset : Int) : Nat := (offset % 18446744073709551616).toNat

/-- Length of the candidate at an offset inside the filler, continued linearly outside. -/
def candidateLength (p : Prober) (offset : Int) : Int :=
  (fillerLength : Int) + p.minimalScript.length - offset

def unusableReport (p : Prober) : Report :=
  ⟨unusableLength, 1, p.bodyLength, none⟩

/-- The report once the offset `high` is known to be the boundary. -/
def report (p : Prober) (calls : Nat) (high : Int) : Report :=
  ⟨p.candidateLength high, calls, p.bodyLength, some (p.candidateLength high - p.bodyLength)⟩

def rejectedRecord : Log.Record :=
  ⟨.info, target, "minimal script rejected; host unusable"⟩

def probeRecord (p : Prober) (offset : Int) (accepted : Bool) : Log.Record :=
  ⟨.debug, target, "probe offset=" ++ Text.Decimal.ofInt offset ++ " length=" ++
    Text.Decimal.ofInt (p.candidateLength offset) ++ " accepted=" ++ boolText accepted⟩

def resultRecord (r : Report) : Log.Record :=
  ⟨.info, target, "max accepted length " ++ Text.Decimal.ofInt r.maxLength ++ " after " ++
    Text.Decimal.ofNat r.calls ++ " calls"⟩

/-- Bisects until the interval is settled; `calls` have been made so far. -/
def search (p : Prober) (calls : Nat) (i : Interval) : Dialogue Report :=
  if h : i.isSettled then
    let r := p.report calls i.high
    .note (resultRecord r) (.done r)
  else
    .ask (p.candidate (wordOfOffset i.midpoint)) fun accepted =>
      .note (p.probeRecord i.midpoint accepted)
        (p.search (calls + 1) (i.narrow i.midpoint accepted))
termination_by i.width.toNat
decreasing_by
  have := i.narrow_midpoint_width accepted (by simpa using h)
  omega

def dialogue (p : Prober) : Dialogue Report :=
  .ask p.minimalScript fun accepted =>
    if accepted then p.search 1 searchInterval
    else .note rejectedRecord (.done p.unusableReport)

def probe {ε σ : Type} (p : Prober) (host : Host ε σ) (s : σ) : Run ε σ Report :=
  p.dialogue.play host s

end Prober

end HostProbe.Capacity
