import Interlink.Proxy.Node

/-!
# Half-close through the inbound proxy

An authorized connection between a client that sends some bytes and then shuts down
its writing half, and an upstream that answers when it has read to the end.  A read
returns a non-empty part of what is pending, cut by the environment, or nothing at
the end.  The 1:1 path reads a first part before it starts to copy; the stream of a
mux tunnel is copied from the start.
-/

namespace Interlink

open Interlink.Foundation

def protocolDetect : Nat := 32

def defaultCopyBufSize : Nat := 65536

/-- `INTERLINK_COPY_BUF_SIZE`, clamped. -/
def copyBufSize (setting : Option Nat) : Nat :=
  max 4096 (min (setting.getD defaultCopyBufSize) (2 ^ 20))

theorem copyBufSize_pos (setting : Option Nat) : 0 < copyBufSize setting := by
  unfold copyBufSize
  omega

namespace HalfClose

inductive Path where
  | direct
  | mux
  deriving DecidableEq, Repr

inductive Phase where
  | detecting
  | forwarding (data : List UInt8)
  | copying
  | closed
  deriving DecidableEq, Repr

/--
The bytes that each end has sent and nobody has read yet, and those that each end has
received, with the end of the stream if it has come.
-/
structure State where
  phase : Phase
  fromClient : List UInt8
  toUpstream : List UInt8
  upstreamEof : Bool
  fromUpstream : List UInt8
  toClient : List UInt8
  clientEof : Bool
  deriving DecidableEq, Repr

inductive Event where
  | detect (n : Nat)
  | forward
  | copyToUpstream (n : Nat)
  | copyToClient (n : Nat)
  | finish
  deriving DecidableEq, Repr

def start (path : Path) (sent : List UInt8) : State where
  phase := match path with
    | .direct => .detecting
    | .mux => .copying
  fromClient := sent
  toUpstream := []
  upstreamEof := false
  fromUpstream := []
  toClient := []
  clientEof := false

def read (capacity n : Nat) (pending : List UInt8) : Option (List UInt8 × List UInt8) :=
  if pending = [] then some ([], [])
  else if 0 < n ∧ n ≤ capacity ∧ n ≤ pending.length then
    some (pending.take n, pending.drop n)
  else none

section Steps

variable (upstream : List UInt8 → List UInt8) (setting : Option Nat)

def close (s : State) : State :=
  { s with phase := .closed, upstreamEof := true, clientEof := true }

/-- The detection read; an early end closes the connection. -/
def detected (s : State) : List UInt8 × List UInt8 → State
  | ([], _) => close s
  | (byte :: data, rest) => { s with phase := .forwarding (byte :: data), fromClient := rest }

/-- At the end of the client's bytes the upstream is shut down for writing, so that it answers. -/
def copiedToUpstream (s : State) : List UInt8 × List UInt8 → State
  | ([], _) => { s with upstreamEof := true, fromUpstream := upstream s.toUpstream }
  | (byte :: data, rest) =>
      { s with toUpstream := s.toUpstream ++ byte :: data, fromClient := rest }

def copiedToClient (s : State) : List UInt8 × List UInt8 → State
  | ([], _) => { s with clientEof := true }
  | (byte :: data, rest) =>
      { s with toClient := s.toClient ++ byte :: data, fromUpstream := rest }

def next (s : State) : Event → Option State
  | .detect n =>
      match s.phase with
      | .detecting => (read protocolDetect n s.fromClient).map (detected s)
      | _ => none
  | .forward =>
      match s.phase with
      | .forwarding data => some { s with phase := .copying, toUpstream := s.toUpstream ++ data }
      | _ => none
  | .copyToUpstream n =>
      match s.phase, s.upstreamEof with
      | .copying, false =>
          (read (copyBufSize setting) n s.fromClient).map (copiedToUpstream upstream s)
      | _, _ => none
  | .copyToClient n =>
      match s.phase, s.upstreamEof, s.clientEof with
      | .copying, true, false =>
          (read (copyBufSize setting) n s.fromUpstream).map (copiedToClient s)
      | _, _, _ => none
  | .finish =>
      match s.phase, s.upstreamEof, s.clientEof with
      | .copying, true, true => some { s with phase := .closed }
      | _, _, _ => none

def step : Step State Event Unit
  | s, e => (next upstream setting s e).map fun s' => (s', [])

end Steps

/-! ## What a read can do -/

section Read

variable {capacity n : Nat} {pending data rest : List UInt8}

theorem read_eq_some (h : read capacity n pending = some (data, rest)) :
    pending = data ++ rest ∧ (data = [] ↔ pending = []) := by
  unfold read at h
  split at h
  next hnil =>
    cases h
    simp [hnil]
  next hne =>
    split at h
    next hn =>
      cases h
      refine ⟨(List.take_append_drop n pending).symm, ?_⟩
      rw [List.take_eq_nil_iff]
      constructor
      · rintro (hzero | hnil)
        · omega
        · exact hnil
      · exact fun hnil => .inr hnil
    next => cases h

theorem exists_read (hcapacity : 0 < capacity) (pending : List UInt8) :
    ∃ n, (read capacity n pending).isSome = true := by
  refine ⟨1, ?_⟩
  unfold read
  split
  · rfl
  · next hne =>
    have hlength : 0 < pending.length := List.length_pos_iff.mpr hne
    rw [if_pos ⟨by omega, by omega, by omega⟩]
    rfl

end Read

/-! ## What a step can do -/

inductive Change (upstream : List UInt8 → List UInt8) (s : State) : State → Prop
  | closeEarly (hphase : s.phase = .detecting) (hend : s.fromClient = []) :
      Change upstream s (close s)
  | detect {data rest : List UInt8} (hphase : s.phase = .detecting) (hdata : data ≠ [])
      (hread : s.fromClient = data ++ rest) :
      Change upstream s { s with phase := .forwarding data, fromClient := rest }
  | forward {data : List UInt8} (hphase : s.phase = .forwarding data) :
      Change upstream s { s with phase := .copying, toUpstream := s.toUpstream ++ data }
  | endOfClient (hphase : s.phase = .copying) (heof : s.upstreamEof = false)
      (hend : s.fromClient = []) :
      Change upstream s { s with upstreamEof := true, fromUpstream := upstream s.toUpstream }
  | toUpstream {data rest : List UInt8} (hphase : s.phase = .copying)
      (heof : s.upstreamEof = false) (hdata : data ≠ []) (hread : s.fromClient = data ++ rest) :
      Change upstream s { s with toUpstream := s.toUpstream ++ data, fromClient := rest }
  | endOfUpstream (hphase : s.phase = .copying) (heof : s.upstreamEof = true)
      (hclient : s.clientEof = false) (hend : s.fromUpstream = []) :
      Change upstream s { s with clientEof := true }
  | toClient {data rest : List UInt8} (hphase : s.phase = .copying)
      (heof : s.upstreamEof = true) (hclient : s.clientEof = false) (hdata : data ≠ [])
      (hread : s.fromUpstream = data ++ rest) :
      Change upstream s { s with toClient := s.toClient ++ data, fromUpstream := rest }
  | finish (hphase : s.phase = .copying) (heof : s.upstreamEof = true)
      (hclient : s.clientEof = true) :
      Change upstream s { s with phase := .closed }

section Change

variable {upstream : List UInt8 → List UInt8} {setting : Option Nat} {s s' : State}

theorem next_change {e : Event} (h : next upstream setting s e = some s') :
    Change upstream s s' := by
  cases e with
  | detect n =>
      simp only [next] at h
      split at h
      next hphase =>
        obtain ⟨⟨data, rest⟩, hread, rfl⟩ := Option.map_eq_some_iff.mp h
        obtain ⟨hpending, hnil⟩ := read_eq_some hread
        cases data with
        | nil => exact .closeEarly hphase (hnil.mp rfl)
        | cons byte data => exact .detect hphase (by simp) hpending
      next => cases h
  | forward =>
      simp only [next] at h
      split at h
      next data hphase =>
        cases h
        exact .forward hphase
      next => cases h
  | copyToUpstream n =>
      simp only [next] at h
      split at h
      next hphase heof =>
        obtain ⟨⟨data, rest⟩, hread, rfl⟩ := Option.map_eq_some_iff.mp h
        obtain ⟨hpending, hnil⟩ := read_eq_some hread
        cases data with
        | nil => exact .endOfClient hphase heof (hnil.mp rfl)
        | cons byte data => exact .toUpstream hphase heof (by simp) hpending
      next => cases h
  | copyToClient n =>
      simp only [next] at h
      split at h
      next hphase heof hclient =>
        obtain ⟨⟨data, rest⟩, hread, rfl⟩ := Option.map_eq_some_iff.mp h
        obtain ⟨hpending, hnil⟩ := read_eq_some hread
        cases data with
        | nil => exact .endOfUpstream hphase heof hclient (hnil.mp rfl)
        | cons byte data => exact .toClient hphase heof hclient (by simp) hpending
      next => cases h
  | finish =>
      simp only [next] at h
      split at h
      next hphase heof hclient =>
        cases h
        exact .finish hphase heof hclient
      next => cases h

theorem step_change {e : Event} {out : List Unit}
    (h : step upstream setting s e = some (s', out)) : Change upstream s s' := by
  obtain ⟨found, hnext, heq⟩ := Option.map_eq_some_iff.mp h
  cases heq
  exact next_change hnext

theorem exists_step (hphase : s.phase ≠ .closed) :
    ∃ e, (step upstream setting s e).isSome = true := by
  cases hp : s.phase with
  | detecting =>
      obtain ⟨n, hn⟩ := exists_read (show 0 < protocolDetect by decide) s.fromClient
      exact ⟨.detect n, by simpa [step, next, hp] using hn⟩
  | forwarding data => exact ⟨.forward, by simp [step, next, hp]⟩
  | copying =>
      cases heof : s.upstreamEof with
      | false =>
          obtain ⟨n, hn⟩ := exists_read (copyBufSize_pos setting) s.fromClient
          exact ⟨.copyToUpstream n, by simpa [step, next, hp, heof] using hn⟩
      | true =>
          cases hclient : s.clientEof with
          | false =>
              obtain ⟨n, hn⟩ := exists_read (copyBufSize_pos setting) s.fromUpstream
              exact ⟨.copyToClient n, by simpa [step, next, hp, heof, hclient] using hn⟩
          | true => exact ⟨.finish, by simp [step, next, hp, heof, hclient]⟩
  | closed => exact absurd hp hphase

end Change

/-! ## No byte is lost -/

def Phase.held : Phase → List UInt8
  | .forwarding data => data
  | _ => []

/--
The bytes of the client are with the upstream, in the proxy's hands or still unread, in
this order; once the upstream has answered, so are the bytes of its answer.
-/
structure Conserved (upstream : List UInt8 → List UInt8) (sent : List UInt8) (s : State) :
    Prop where
  bytes : s.toUpstream ++ (s.phase.held ++ s.fromClient) = sent
  detecting : s.phase = .detecting →
    s.toUpstream = [] ∧ s.upstreamEof = false ∧ (sent ≠ [] ∨ upstream [] = [])
  forwarding : ∀ data, s.phase = .forwarding data → s.upstreamEof = false
  ended : s.upstreamEof = true → s.fromClient = [] ∧ s.toClient ++ s.fromUpstream = upstream sent
  unanswered : s.upstreamEof = false →
    s.toClient = [] ∧ s.fromUpstream = [] ∧ s.clientEof = false
  answered : s.clientEof = true → s.fromUpstream = []
  closed : s.phase = .closed → s.upstreamEof = true ∧ s.clientEof = true

section Conserved

variable {upstream : List UInt8 → List UInt8} {setting : Option Nat} {sent : List UInt8}
  {s s' : State}

theorem Conserved.toUpstream_eq (h : Conserved upstream sent s) (hphase : s.phase = .copying)
    (hend : s.fromClient = []) : s.toUpstream = sent := by
  have hsent := h.bytes
  rw [hphase, hend] at hsent
  simpa [Phase.held] using hsent

theorem Conserved.change (h : Conserved upstream sent s) (hchange : Change upstream s s') :
    Conserved upstream sent s' := by
  cases hchange with
  | closeEarly hphase hend =>
      obtain ⟨hup, heof, hcond⟩ := h.detecting hphase
      have hsent : sent = [] := by
        rw [← h.bytes, hup, hphase, hend]
        rfl
      have hquiet : upstream [] = [] := hcond.resolve_left fun hne => hne hsent
      obtain ⟨hclient, hfrom, -⟩ := h.unanswered heof
      exact {
        bytes := by simp [close, hup, hend, hsent, Phase.held]
        detecting := by simp [close]
        forwarding := by simp [close]
        ended := fun _ => ⟨hend, by simp [close, hclient, hfrom, hsent, hquiet]⟩
        unanswered := by simp [close]
        answered := fun _ => hfrom
        closed := fun _ => ⟨rfl, rfl⟩ }
  | detect hphase hdata hread =>
      obtain ⟨hup, heof, -⟩ := h.detecting hphase
      have hsent := h.bytes
      rw [hphase, hread] at hsent
      exact {
        bytes := hsent
        detecting := by simp
        forwarding := fun _ _ => heof
        ended := by simp [heof]
        unanswered := fun _ => h.unanswered heof
        answered := h.answered
        closed := by simp }
  | forward hphase =>
      have heof := h.forwarding _ hphase
      have hsent := h.bytes
      rw [hphase] at hsent
      exact {
        bytes := by simpa [Phase.held] using hsent
        detecting := by simp
        forwarding := by simp
        ended := by simp [heof]
        unanswered := fun _ => h.unanswered heof
        answered := h.answered
        closed := by simp }
  | endOfClient hphase heof hend =>
      have hup := h.toUpstream_eq hphase hend
      obtain ⟨hclient, -, hopen⟩ := h.unanswered heof
      exact {
        bytes := h.bytes
        detecting := by simp [hphase]
        forwarding := by simp [hphase]
        ended := fun _ => ⟨hend, by simp [hclient, hup]⟩
        unanswered := by simp
        answered := by simp [hopen]
        closed := by simp [hphase] }
  | toUpstream hphase heof hdata hread =>
      have hsent := h.bytes
      rw [hphase, hread] at hsent
      exact {
        bytes := by simpa [hphase, Phase.held] using hsent
        detecting := by simp [hphase]
        forwarding := by simp [hphase]
        ended := by simp [heof]
        unanswered := fun _ => h.unanswered heof
        answered := h.answered
        closed := by simp [hphase] }
  | endOfUpstream hphase heof hclient hend =>
      exact {
        bytes := h.bytes
        detecting := by simp [hphase]
        forwarding := by simp [hphase]
        ended := h.ended
        unanswered := by simp [heof]
        answered := fun _ => hend
        closed := by simp [hphase] }
  | toClient hphase heof hclient hdata hread =>
      obtain ⟨hend, hreply⟩ := h.ended heof
      rw [hread] at hreply
      exact {
        bytes := h.bytes
        detecting := by simp [hphase]
        forwarding := by simp [hphase]
        ended := fun _ => ⟨hend, by simpa using hreply⟩
        unanswered := by simp [heof]
        answered := by simp [hclient]
        closed := by simp [hphase] }
  | finish hphase heof hclient =>
      have hsent := h.bytes
      rw [hphase] at hsent
      exact {
        bytes := hsent
        detecting := by simp
        forwarding := by simp
        ended := h.ended
        unanswered := by simp [heof]
        answered := h.answered
        closed := fun _ => ⟨heof, hclient⟩ }

theorem conserved_start {path : Path}
    (hcond : path = .mux ∨ sent ≠ [] ∨ upstream [] = []) :
    Conserved upstream sent (start path sent) where
  bytes := by cases path <;> rfl
  detecting := by
    intro hphase
    refine ⟨rfl, rfl, hcond.resolve_left ?_⟩
    rintro rfl
    cases hphase
  forwarding := by simp [start]
  ended := by simp [start]
  unanswered := fun _ => ⟨rfl, rfl, rfl⟩
  answered := by simp [start]
  closed := by cases path <;> simp [start]

/-! ## Every run ends -/

def Phase.rank : Phase → Nat
  | .detecting => 3
  | .forwarding _ => 2
  | .copying => 1
  | .closed => 0

def remaining (upstream : List UInt8 → List UInt8) (sent : List UInt8) (s : State) : Nat :=
  s.phase.rank + s.fromClient.length +
    (if s.upstreamEof then s.fromUpstream.length else (upstream sent).length + 1) +
    (if s.clientEof then 0 else 1)

theorem remaining_lt (h : Conserved upstream sent s) (hchange : Change upstream s s') :
    remaining upstream sent s' < remaining upstream sent s := by
  cases hchange with
  | closeEarly hphase hend =>
      obtain ⟨-, heof, -⟩ := h.detecting hphase
      obtain ⟨-, hfrom, -⟩ := h.unanswered heof
      simp only [remaining, close, hphase, Phase.rank, hend, heof, hfrom, if_true,
        Bool.false_eq_true, if_false, List.length_nil]
      split <;> omega
  | detect hphase hdata hread =>
      have hlength := congrArg List.length hread
      rw [List.length_append] at hlength
      simp only [remaining, hphase, Phase.rank]
      omega
  | forward hphase =>
      simp only [remaining, hphase, Phase.rank]
      omega
  | endOfClient hphase heof hend =>
      have hup := h.toUpstream_eq hphase hend
      simp only [remaining, hphase, heof, hup, if_true, Bool.false_eq_true, if_false]
      omega
  | toUpstream hphase heof hdata hread =>
      have hlength := congrArg List.length hread
      rw [List.length_append] at hlength
      have hpos := List.length_pos_iff.mpr hdata
      simp only [remaining]
      omega
  | endOfUpstream hphase heof hclient hend =>
      simp only [remaining, hclient, if_true, Bool.false_eq_true, if_false]
      omega
  | toClient hphase heof hclient hdata hread =>
      have hlength := congrArg List.length hread
      rw [List.length_append] at hlength
      have hpos := List.length_pos_iff.mpr hdata
      simp only [remaining, heof, if_true]
      omega
  | finish hphase heof hclient =>
      simp only [remaining, hphase, Phase.rank]
      omega

theorem Conserved.step {e : Event} {out : List Unit} (h : Conserved upstream sent s)
    (hstep : step upstream setting s e = some (s', out)) :
    Conserved upstream sent s' ∧ remaining upstream sent s' < remaining upstream sent s :=
  ⟨h.change (step_change hstep), remaining_lt h (step_change hstep)⟩

end Conserved

/-! ## Delivery -/

structure Delivered (upstream : List UInt8 → List UInt8) (sent : List UInt8) (s : State) :
    Prop where
  toUpstream : s.toUpstream = sent
  upstreamEof : s.upstreamEof = true
  toClient : s.toClient = upstream sent
  clientEof : s.clientEof = true

/--
However the reads are cut, the connection goes on until it is closed, it is closed
after a bounded number of steps, and everything has been delivered then.
-/
def Delivers (upstream : List UInt8 → List UInt8) (setting : Option Nat) (path : Path)
    (sent : List UInt8) : Prop :=
  ∀ events s outs,
    Step.exec (step upstream setting) (start path sent) events = some (s, outs) →
      events.length ≤ sent.length + (upstream sent).length + 5 ∧
      (s.phase ≠ .closed → ∃ e, (step upstream setting s e).isSome = true) ∧
      (s.phase = .closed → Delivered upstream sent s)

section Delivery

variable {upstream : List UInt8 → List UInt8} {setting : Option Nat} {sent : List UInt8}

theorem Conserved.delivered {s : State} (h : Conserved upstream sent s)
    (hphase : s.phase = .closed) : Delivered upstream sent s := by
  obtain ⟨heof, hclient⟩ := h.closed hphase
  obtain ⟨hend, hreply⟩ := h.ended heof
  have hsent := h.bytes
  rw [hphase, hend] at hsent
  rw [h.answered hclient, List.append_nil] at hreply
  exact ⟨by simpa [Phase.held] using hsent, heof, hreply, hclient⟩

theorem delivers_of_conserved {path : Path}
    (h : Conserved upstream sent (start path sent)) : Delivers upstream setting path sent := by
  intro events s outs hexec
  have hlast : Conserved upstream sent s :=
    Step.invariant (I := fun _ s => Conserved upstream sent s)
      (fun h hstep => (h.step hstep).1) h hexec
  have hlength := Step.length_add_le (fun h hstep => Conserved.step h hstep) h hexec
  refine ⟨?_, fun hphase => exists_step hphase, fun hphase => hlast.delivered hphase⟩
  cases path with
  | direct =>
      simp only [remaining, start, Phase.rank, Bool.false_eq_true, if_false] at hlength
      omega
  | mux =>
      simp only [remaining, start, Phase.rank, Bool.false_eq_true, if_false] at hlength
      omega

/-- An empty message to an upstream that answers it is the one that the 1:1 path loses. -/
theorem delivers_iff (upstream : List UInt8 → List UInt8) (setting : Option Nat)
    (sent : List UInt8) :
    (Delivers upstream setting .direct sent ∧ Delivers upstream setting .mux sent) ↔
      (sent ≠ [] ∨ upstream [] = []) := by
  constructor
  · rintro ⟨hdirect, -⟩
    by_cases hsent : sent = []
    · subst hsent
      right
      have hclosed : Step.exec (step upstream setting) (start .direct []) [.detect 0] =
          some (close (start .direct []), []) := rfl
      exact ((hdirect _ _ _ hclosed).2.2 rfl).toClient.symm
    · exact .inl hsent
  · intro hcond
    exact ⟨delivers_of_conserved (conserved_start (.inr hcond)),
      delivers_of_conserved (conserved_start (.inl rfl))⟩

private def counting (received : List UInt8) : List UInt8 :=
  bytes ("got ".toList ++ (toString received.length).toList)

theorem emptyMessage_lost :
    Step.exec (step counting none) (start .direct []) [.detect 0] =
      some (⟨.closed, [], [], true, [], [], true⟩, []) ∧
    Step.exec (step counting none) (start .mux [])
        [.copyToUpstream 0, .copyToClient 5, .copyToClient 0, .finish] =
      some (⟨.closed, [], [], true, [], bytes "got 0".toList, true⟩, []) ∧
    ¬ Delivers counting none .direct [] := by
  refine ⟨rfl, by decide +kernel, ?_⟩
  intro hdelivers
  have hclosed : Step.exec (step counting none) (start .direct []) [.detect 0] =
      some (⟨.closed, [], [], true, [], [], true⟩, []) := rfl
  have hclient : [] = counting [] := ((hdelivers _ _ _ hclosed).2.2 rfl).toClient
  exact absurd hclient (by decide +kernel)

end Delivery

/-! ## Where the inbound proxy runs it -/

def relayedTo (i : Nat) (stream : Option Nat) (direction : Direction)
    (observed : List TcpProxy.Observation) : List UInt8 :=
  observed.flatMap fun
    | .relayed j other _ towards data =>
        if j = i ∧ other = stream ∧ towards = direction then data else []
    | _ => []

theorem relayedTo_append (i : Nat) (stream : Option Nat) (direction : Direction)
    (observed later : List TcpProxy.Observation) :
    relayedTo i stream direction (observed ++ later) =
      relayedTo i stream direction observed ++ relayedTo i stream direction later :=
  List.flatMap_append

def Phase.conn (addr : SocketAddr) (tls : TlsStream) : Phase → TcpProxy.Conn
  | .detecting => .handling addr (.detecting tls)
  | .forwarding data => .handling addr (.forwarding tls data)
  | .copying => .handling addr (.relaying tls)
  | .closed => .leaving

def Phase.streamPc : Phase → TcpProxy.StreamPc
  | .detecting => .spawned
  | .forwarding _ => .spawned
  | .copying => .relaying
  | .closed => .finished

/--
A connection of a sidecar stands where the model stands, and has relayed the bytes that
the model says it has.
-/
structure Direct (i : Nat) (addr : SocketAddr) (tls : TlsStream) (s : State)
    (trace : List Node.Observation) (t : Node.State) : Prop where
  conn : t.inbound.conns[i]? = some (s.phase.conn addr tls)
  toUpstream : relayedTo i none .toUpstream (Node.inboundTrace trace) = s.toUpstream
  toClient : relayedTo i none .toClient (Node.inboundTrace trace) = s.toClient

structure OnStream (k : Nat) (stream : TcpProxy.Stream) (s : State)
    (trace : List Node.Observation) (t : Node.State) : Prop where
  phase : s.phase = .copying ∨ s.phase = .closed
  pc : t.inbound.streams[k]? = some { stream with pc := s.phase.streamPc }
  toUpstream :
    relayedTo stream.conn (some k) .toUpstream (Node.inboundTrace trace) = s.toUpstream
  toClient : relayedTo stream.conn (some k) .toClient (Node.inboundTrace trace) = s.toClient

section Refinement

variable {node : Node} {upstream : List UInt8 → List UInt8} {setting : Option Nat}
  {s s' : State} {trace : List Node.Observation} {t : Node.State}

private theorem exec_inbound {event : TcpProxy.Event} {shared : Shared}
    {inbound : TcpProxy.State} {seen : List TcpProxy.Observation}
    (h : node.inbound.step t.shared t.inbound event = some (shared, inbound, seen)) :
    node.step.exec t [.inbound event] =
      some ({ t with shared := shared, inbound := inbound }, seen.map .inbound) := by
  simp [Step.exec, Node.step, h]

private theorem Direct.stutter {i : Nat} {addr : SocketAddr} {tls : TlsStream}
    (h : Direct i addr tls s trace t) (hphase : s'.phase = s.phase)
    (hup : s'.toUpstream = s.toUpstream) (hclient : s'.toClient = s.toClient) :
    ∃ es t' outs, node.step.exec t es = some (t', outs) ∧
      Direct i addr tls s' (trace ++ outs) t' := by
  refine ⟨[], t, [], rfl, ?_, ?_, ?_⟩
  · rw [hphase]
    exact h.conn
  · rw [List.append_nil, hup]
    exact h.toUpstream
  · rw [List.append_nil, hclient]
    exact h.toClient

private theorem Direct.answer {i : Nat} {addr : SocketAddr} {tls : TlsStream}
    (h : Direct i addr tls s trace t) (event : TcpProxy.Event)
    (seen : List TcpProxy.Observation)
    (hstep : node.inbound.step t.shared t.inbound event =
      some (t.shared, t.inbound.goto i (s'.phase.conn addr tls), seen))
    (hup : s'.toUpstream = s.toUpstream ++ relayedTo i none .toUpstream seen)
    (hclient : s'.toClient = s.toClient ++ relayedTo i none .toClient seen) :
    ∃ es t' outs, node.step.exec t es = some (t', outs) ∧
      Direct i addr tls s' (trace ++ outs) t' := by
  refine ⟨_, _, _, exec_inbound hstep, ?_, ?_, ?_⟩
  · exact Tasks.getElem?_set_of h.conn _
  · rw [Node.inboundTrace_append, Node.inboundTrace_map_inbound, relayedTo_append,
      h.toUpstream, hup]
  · rw [Node.inboundTrace_append, Node.inboundTrace_map_inbound, relayedTo_append,
      h.toClient, hclient]

theorem Direct.change {i : Nat} {addr : SocketAddr} {tls : TlsStream}
    (h : Direct i addr tls s trace t) (hchange : Change upstream s s') :
    ∃ es t' outs, node.step.exec t es = some (t', outs) ∧
      Direct i addr tls s' (trace ++ outs) t' := by
  have hconn := h.conn
  cases hchange with
  | closeEarly hphase hend =>
      rw [hphase, Phase.conn] at hconn
      refine h.answer (.read i (some [])) [.metric .connectionFailed] ?_ ?_ ?_
      · simp only [TcpProxy.step, hconn]
        rfl
      · simp [close, relayedTo]
      · simp [close, relayedTo]
  | @detect data rest hphase hdata hread =>
      rw [hphase, Phase.conn] at hconn
      obtain ⟨byte, data, rfl⟩ := List.exists_cons_of_ne_nil hdata
      refine h.answer (.read i (some (byte :: data))) [] ?_ ?_ ?_
      · simp only [TcpProxy.step, hconn]
        rfl
      · simp [relayedTo]
      · simp [relayedTo]
  | @forward data hphase =>
      rw [hphase, Phase.conn] at hconn
      refine h.answer (.written i 0 true) [.relayed i none tls .toUpstream data] ?_ ?_ ?_
      · simp only [TcpProxy.step, hconn]
        rfl
      · simp [relayedTo]
      · simp [relayedTo]
  | endOfClient hphase heof hend => exact h.stutter rfl rfl rfl
  | @toUpstream data rest hphase heof hdata hread =>
      rw [hphase, Phase.conn] at hconn
      refine h.answer (.relay i .toUpstream data) [.relayed i none tls .toUpstream data] ?_ ?_ ?_
      · simp only [TcpProxy.step, hconn, hphase]
        rfl
      · simp [relayedTo]
      · simp [relayedTo]
  | endOfUpstream hphase heof hclient hend => exact h.stutter rfl rfl rfl
  | @toClient data rest hphase heof hclient hdata hread =>
      rw [hphase, Phase.conn] at hconn
      refine h.answer (.relay i .toClient data) [.relayed i none tls .toClient data] ?_ ?_ ?_
      · simp only [TcpProxy.step, hconn, hphase]
        rfl
      · simp [relayedTo]
      · simp [relayedTo]
  | finish hphase heof hclient =>
      rw [hphase, Phase.conn] at hconn
      refine h.answer (.relayEnd i (some (s.toUpstream.length, s.toClient.length)))
        [.metric (.connection s.toUpstream.length s.toClient.length)] ?_ ?_ ?_
      · simp only [TcpProxy.step, hconn]
        rfl
      · simp [relayedTo]
      · simp [relayedTo]

private theorem OnStream.stutter {k : Nat} {stream : TcpProxy.Stream}
    (h : OnStream k stream s trace t) (hphase : s'.phase = s.phase)
    (hup : s'.toUpstream = s.toUpstream) (hclient : s'.toClient = s.toClient) :
    ∃ es t' outs, node.step.exec t es = some (t', outs) ∧
      OnStream k stream s' (trace ++ outs) t' := by
  refine ⟨[], t, [], rfl, ?_, ?_, ?_, ?_⟩
  · rw [hphase]
    exact h.phase
  · rw [hphase]
    exact h.pc
  · rw [List.append_nil, hup]
    exact h.toUpstream
  · rw [List.append_nil, hclient]
    exact h.toClient

private theorem OnStream.answer {k : Nat} {stream : TcpProxy.Stream}
    (h : OnStream k stream s trace t) (event : TcpProxy.Event)
    (seen : List TcpProxy.Observation) (inbound : TcpProxy.State)
    (hstep : node.inbound.step t.shared t.inbound event = some (t.shared, inbound, seen))
    (hphase : s'.phase = .copying ∨ s'.phase = .closed)
    (hpc : inbound.streams[k]? = some { stream with pc := s'.phase.streamPc })
    (hup : s'.toUpstream = s.toUpstream ++ relayedTo stream.conn (some k) .toUpstream seen)
    (hclient : s'.toClient = s.toClient ++ relayedTo stream.conn (some k) .toClient seen) :
    ∃ es t' outs, node.step.exec t es = some (t', outs) ∧
      OnStream k stream s' (trace ++ outs) t' := by
  refine ⟨_, _, _, exec_inbound hstep, hphase, hpc, ?_, ?_⟩
  · rw [Node.inboundTrace_append, Node.inboundTrace_map_inbound, relayedTo_append,
      h.toUpstream, hup]
  · rw [Node.inboundTrace_append, Node.inboundTrace_map_inbound, relayedTo_append,
      h.toClient, hclient]

theorem OnStream.change {k : Nat} {stream : TcpProxy.Stream}
    (h : OnStream k stream s trace t) (hchange : Change upstream s s') :
    ∃ es t' outs, node.step.exec t es = some (t', outs) ∧
      OnStream k stream s' (trace ++ outs) t' := by
  have hpc := h.pc
  cases hchange with
  | closeEarly hphase hend => exact absurd h.phase (by simp [hphase])
  | detect hphase hdata hread => exact absurd h.phase (by simp [hphase])
  | forward hphase => exact absurd h.phase (by simp [hphase])
  | endOfClient hphase heof hend => exact h.stutter rfl rfl rfl
  | @toUpstream data rest hphase heof hdata hread =>
      rw [hphase, Phase.streamPc] at hpc
      refine h.answer (.streamRelay k .toUpstream data)
        [.relayed stream.conn (some k) stream.tls .toUpstream data] t.inbound ?_ h.phase h.pc
        ?_ ?_
      · simp only [TcpProxy.step, hpc]
        rfl
      · simp [relayedTo]
      · simp [relayedTo]
  | endOfUpstream hphase heof hclient hend => exact h.stutter rfl rfl rfl
  | @toClient data rest hphase heof hclient hdata hread =>
      rw [hphase, Phase.streamPc] at hpc
      refine h.answer (.streamRelay k .toClient data)
        [.relayed stream.conn (some k) stream.tls .toClient data] t.inbound ?_ h.phase h.pc
        ?_ ?_
      · simp only [TcpProxy.step, hpc]
        rfl
      · simp [relayedTo]
      · simp [relayedTo]
  | finish hphase heof hclient =>
      rw [hphase, Phase.streamPc] at hpc
      refine h.answer (.streamEnd k (some (s.toUpstream.length, s.toClient.length)))
        [.metric (.connection s.toUpstream.length s.toClient.length)]
        (t.inbound.gotoStream k stream .finished) ?_ (.inr rfl) ?_ ?_ ?_
      · simp only [TcpProxy.step, hpc]
        rfl
      · exact Tasks.getElem?_set_of hpc _
      · simp [relayedTo]
      · simp [relayedTo]

end Refinement

section Example

open Node.Example

private def accepted : TlsStream := ⟨⟨0, some [svid], none⟩, workload⟩

private def relayed : TcpProxy.Stream := ⟨1, accepted, application, .relaying⟩

private def serving : Node.State :=
  { sidecar.initial readSvid allowAny with
    inbound := ⟨1022, 2, [.handling application (.detecting accepted), .leaving],
      [relayed], 2⟩ }

end Example

end HalfClose

end Interlink
