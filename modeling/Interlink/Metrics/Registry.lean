import Interlink.Foundation.Ledger
import Interlink.Proxy.Shared

/-!
# The metrics registry

Counters are numbers, the gauge of active connections is an integer, and of a
histogram only the number of its observations is kept.
-/

namespace Interlink

open Interlink.Foundation

structure InterlinkMetrics where
  connectionsTotal : Nat
  connectionErrorsTotal : Nat
  connectionsActive : Int
  handshakesTotal : Nat
  bytesTotal : Nat
  connectionDuration : Nat
  handshakeDuration : Nat
  policyAllowedTotal : Nat
  policyDeniedTotal : Nat
  saturationRejectionsTotal : Nat
  handshakeFullTotal : Nat
  handshakeResumedTotal : Nat
  muxTunnelsOpenedTotal : Nat
  muxStreamsTotal : Nat
  deriving DecidableEq

namespace InterlinkMetrics

def new : InterlinkMetrics :=
  ⟨0, 0, 0, 0, 0, 0, 0, 0, 0, 0, 0, 0, 0, 0⟩

def record (m : InterlinkMetrics) : Metric → InterlinkMetrics
  | .connection bytesUp bytesDown =>
      { m with
        connectionDuration := m.connectionDuration + 1
        connectionsTotal := m.connectionsTotal + 1
        bytesTotal := m.bytesTotal + (bytesUp + bytesDown)
        connectionsActive := m.connectionsActive - 1 }
  | .connectionFailed =>
      { m with
        connectionsTotal := m.connectionsTotal + 1
        connectionErrorsTotal := m.connectionErrorsTotal + 1
        connectionsActive := m.connectionsActive - 1 }
  | .connectionStart => { m with connectionsActive := m.connectionsActive + 1 }
  | .handshake =>
      { m with
        handshakeDuration := m.handshakeDuration + 1
        handshakesTotal := m.handshakesTotal + 1 }
  | .handshakeError => { m with handshakesTotal := m.handshakesTotal + 1 }
  | .handshakeKind true => { m with handshakeResumedTotal := m.handshakeResumedTotal + 1 }
  | .handshakeKind false => { m with handshakeFullTotal := m.handshakeFullTotal + 1 }
  | .tunnelClosed => { m with connectionsActive := m.connectionsActive - 1 }
  | .muxTunnelOpened => { m with muxTunnelsOpenedTotal := m.muxTunnelsOpenedTotal + 1 }
  | .muxStream => { m with muxStreamsTotal := m.muxStreamsTotal + 1 }
  | .saturationRejection =>
      { m with saturationRejectionsTotal := m.saturationRejectionsTotal + 1 }
  | .policy .allow => { m with policyAllowedTotal := m.policyAllowedTotal + 1 }
  | .policy (.deny _) => { m with policyDeniedTotal := m.policyDeniedTotal + 1 }

def recorded (calls : List Metric) : InterlinkMetrics :=
  calls.foldl record new

end InterlinkMetrics

/-! ## The ledger of connections -/

/--
How a connection that was started ends: a tunnel carrier is released without being
counted as a connection.
-/
inductive Ending where
  | failed
  | completed
  | carrier
  deriving DecidableEq

def Metric.entry : Metric → Option (Ledger.Entry Ending)
  | .connectionStart => some .start
  | .connectionFailed => some (.finish .failed)
  | .connection _ _ => some (.finish .completed)
  | .tunnelClosed => some (.finish .carrier)
  | _ => none

theorem entry_recordRelayResult (result : Option (Nat × Nat)) :
    ∃ kind, (recordRelayResult result).entry = some (.finish kind) := by
  cases result with
  | none => exact ⟨.failed, rfl⟩
  | some bytes => exact ⟨.completed, rfl⟩

@[simp]
theorem recordRelayResult_ne_tunnelClosed (result : Option (Nat × Nat)) :
    recordRelayResult result ≠ .tunnelClosed := by
  cases result <;> simp [recordRelayResult]

theorem Metric.entry_eq_carrier_iff (call : Metric) :
    call.entry = some (.finish .carrier) ↔ call = .tunnelClosed := by
  cases call <;> simp [Metric.entry]

namespace InterlinkMetrics

variable {m : InterlinkMetrics} {entries : List (Ledger.Entry Ending)}

structure Agrees (entries : List (Ledger.Entry Ending)) (m : InterlinkMetrics) : Prop where
  active : m.connectionsActive + entries.countP Ledger.Entry.isFinish =
    entries.countP Ledger.Entry.isStart
  total : m.connectionsTotal + entries.count (.finish .carrier) =
    entries.countP Ledger.Entry.isFinish
  duration : m.connectionDuration + m.connectionErrorsTotal = m.connectionsTotal

theorem Agrees.record (h : Agrees entries m) (call : Metric) :
    Agrees (entries ++ call.entry.toList) (m.record call) := by
  obtain ⟨hactive, htotal, hduration⟩ := h
  cases call with
  | connectionStart | connectionFailed | connection _ _ | tunnelClosed =>
      constructor <;>
        simp [Metric.entry, InterlinkMetrics.record, Ledger.Entry.isStart,
          Ledger.Entry.isFinish] <;>
        omega
  | handshakeKind resumed =>
      change Agrees (entries ++ []) _
      rw [List.append_nil]
      cases resumed <;> exact ⟨hactive, htotal, hduration⟩
  | policy decision =>
      change Agrees (entries ++ []) _
      rw [List.append_nil]
      cases decision <;> exact ⟨hactive, htotal, hduration⟩
  | handshake | handshakeError | saturationRejection | muxTunnelOpened | muxStream =>
      change Agrees (entries ++ []) _
      rw [List.append_nil]
      exact ⟨hactive, htotal, hduration⟩

theorem agrees_recorded (calls : List Metric) :
    Agrees (calls.filterMap Metric.entry) (recorded calls) := by
  induction calls using List.reverseRecOn with
  | nil => exact ⟨rfl, rfl, rfl⟩
  | append_singleton calls call ih =>
      have hentries : (calls ++ [call]).filterMap Metric.entry =
          calls.filterMap Metric.entry ++ call.entry.toList := by
        rw [List.filterMap_append]
        cases hentry : call.entry <;> simp [hentry]
      have hrecorded : recorded (calls ++ [call]) = (recorded calls).record call :=
        List.foldl_append ..
      rw [hentries, hrecorded]
      exact ih.record call

end InterlinkMetrics

end Interlink
