import P2PServer.Memory
import P2PServer.Net

/-! The client's NAT type probe (`NatDetect.h`). A datagram is given as the memory at its
pointer, since `feed` reads at fixed offsets whatever length it is given. -/
namespace P2PServer
open ByteStrings ProtoDef Net

namespace NatDetect

inductive Phase
  | idle
  | main
  | alt
  | done
  deriving DecidableEq, Repr

end NatDetect

structure NatDetect where
  phase : NatDetect.Phase := .idle
  nattype : UInt8 := natUnknown
  gotMainIdx0 : Bool := false
  gotMainIdx1 : Bool := false
  gotAlt : Bool := false
  mappedIpMain : Bytes := List.replicate 16 0
  mappedPortMain : UInt16 := 0
  mappedPortAlt : UInt16 := 0
  deadline : UInt64 := 0
  mainTimeoutMs : UInt32 := 2500
  retryMs : UInt32 := 500
  deriving DecidableEq, Repr

namespace NatDetect

def isDone (d : NatDetect) : Bool := d.phase = .done

/-- The caller then probes the main port. -/
def start (d : NatDetect) (now : UInt64) : NatDetect :=
  { d with
    phase := .main, mappedPortMain := 0, gotMainIdx0 := false, gotMainIdx1 := false
    gotAlt := false, deadline := now + d.mainTimeoutMs.toUInt64
    mappedIpMain := List.replicate 16 0 }

def classify (d : NatDetect) : NatDetect :=
  { d with
    nattype := if d.gotAlt && d.mappedPortAlt == d.mappedPortMain then natPortRestricted
      else natSymmetric
    phase := .done }

def feed (rsp : Memory) (len : ℕ) (d : NatDetect) : NatDetect :=
  if len < 3 then d
  else
    let idx := rsp 0
    let mappedPort := rd16 (rsp 35) (rsp 36)
    match d.phase with
    | .main =>
      let d := if idx = 0 then
          { d with
            gotMainIdx0 := true, mappedIpMain := rsp.read 19 16, mappedPortMain := mappedPort }
        else if idx = 1 then { d with gotMainIdx1 := true }
        else d
      if d.gotMainIdx0 && d.gotMainIdx1 then { d with nattype := natFullCone, phase := .done }
      else d
    | .alt => if idx = 0 then classify { d with gotAlt := true, mappedPortAlt := mappedPort } else d
    | .idle | .done => d

/-- The new state and the port to probe, if any. -/
def tick (mainPort altPort : UInt16) (now : UInt64) (d : NatDetect) : NatDetect × Option UInt16 :=
  let due := now ≥ d.deadline + d.retryMs.toUInt64
  let again := now + d.mainTimeoutMs.toUInt64
  match d.phase with
  | .main =>
    if due then
      if !d.gotMainIdx0 then ({ d with deadline := again }, some mainPort)
      else ({ d with phase := .alt, deadline := again }, some altPort)
    else (d, none)
  | .alt =>
    if due then
      if d.gotAlt then (d.classify, none) else ({ d with deadline := again }, some altPort)
    else (d, none)
  | .idle | .done => (d, none)

end NatDetect

end P2PServer
