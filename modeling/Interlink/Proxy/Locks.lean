import Interlink.Proxy.OutboundMoves

/-!
# The creation locks

A connection that stands between taking and dropping the creation lock of its
address is the holder of that lock, and the holder of a lock stands there.
-/

namespace Interlink.OutboundProxy

open Interlink.Foundation

/-! ## Points at which the lock is held -/

def Origin.locked : Origin → Bool
  | .pooled _ => false
  | .fresh locked => locked

def Subject.locked : Subject → Bool
  | .tunnel _ _ => false
  | .stream locked _ => locked

def Pc.locked : Pc → Bool
  | .rechecking _ | .checkingGrowth _ | .unlocking _ => true
  | .dialing locked | .connecting locked | .identifying locked _ | .caching locked _ _
  | .numbering locked _ | .pushing locked _ | .spawning locked _ => locked
  | .evaluating subject | .evaluatingGlobal subject => subject.locked
  | .reserving origin _ | .opening origin _ | .unreserving origin _ | .evicting origin _ =>
      origin.locked
  | .picking _ | .locking _ | .fallingBack _ | .returning _ | .relaying _ | .dropping _ =>
      false

def Conn.locked : Conn → Bool
  | .routing _ pc => pc.locked
  | _ => false

def Pc.unlocked : Pc → Bool
  | .evaluating (.tunnel _ _) | .fallingBack _ | .returning _ => true
  | _ => false

def Pc.UnlocksOnce : Pc → Prop
  | .unlocking next => next.unlocked = true
  | _ => True

structure Locks (s : State) : Prop where
  holder : ∀ (i : Nat) (addr : SocketAddr) (pc : Pc),
    s.conns[i]? = some (.routing addr pc) → pc.locked = true →
      s.pool.creating addr = some i
  held : ∀ (i : Nat) (addr : SocketAddr), s.pool.creating addr = some i →
    ∃ pc, s.conns[i]? = some (.routing addr pc) ∧ pc.locked = true
  once : ∀ (i : Nat) (addr : SocketAddr) (pc : Pc),
    s.conns[i]? = some (.routing addr pc) → pc.UnlocksOnce

variable {proxy : OutboundProxy} {shared shared' : Shared} {s s' : State} {i : Nat}
  {addr : SocketAddr} {pc : Pc} {effect : Effect} {conn : Conn} {e : Event}
  {out : List Observation}

theorem Locks.eq_of_locked (h : Locks s) {j : Nat} {pcI pcJ : Pc}
    (hi : s.conns[i]? = some (.routing addr pcI)) (hj : s.conns[j]? = some (.routing addr pcJ))
    (hpcI : pcI.locked = true) (hpcJ : pcJ.locked = true) : i = j :=
  Option.some.inj ((h.holder i addr pcI hi hpcI).symm.trans (h.holder j addr pcJ hj hpcJ))

/-! ## Moves and the lock -/

@[simp]
theorem locked_leave (locked : Bool) (hpc : pc.locked = false) :
    (leave locked pc).locked = locked := by
  cases locked with
  | false => exact hpc
  | true => rfl

theorem locked_of_unlocked (hpc : pc.unlocked = true) : pc.locked = false := by
  cases pc with
  | evaluating subject =>
      cases subject with
      | tunnel attempts tunnel => rfl
      | stream locked tls => cases hpc
  | fallingBack attempts => rfl
  | returning route => rfl
  | _ => cases hpc

theorem unlocksOnce_of_not_locked (hpc : pc.locked = false) : pc.UnlocksOnce := by
  cases pc <;> trivial

theorem unlocksOnce_leave (locked : Bool) (hpc : pc.unlocked = true) :
    (leave locked pc).UnlocksOnce := by
  cases locked with
  | false => exact unlocksOnce_of_not_locked (locked_of_unlocked hpc)
  | true => exact hpc

theorem locked_decided (subject : Subject) (decision : Decision) :
    (decided subject decision).locked = subject.locked := by
  refine decided_cases (P := fun subject pc => pc.locked = subject.locked) ?_ ?_ ?_ ?_ ?_
    subject decision
  · exact fun _ _ => rfl
  · exact fun _ _ => rfl
  · exact fun _ _ => rfl
  · exact fun locked _ => locked_leave locked rfl
  · exact fun locked _ => locked_leave locked rfl

theorem unlocksOnce_decided (subject : Subject) (decision : Decision) :
    (decided subject decision).UnlocksOnce := by
  refine decided_cases (P := fun _ pc => pc.UnlocksOnce) ?_ ?_ ?_ ?_ ?_ subject decision
  · exact fun _ _ => trivial
  · exact fun _ _ => trivial
  · exact fun _ _ => trivial
  · exact fun locked _ => unlocksOnce_leave locked rfl
  · exact fun locked _ => unlocksOnce_leave locked rfl

theorem Move.locked_eq (h : Move proxy shared s i addr pc effect conn out)
    (hlock : effect ≠ .lock) (hunlock : effect ≠ .unlock) : conn.locked = pc.locked := by
  cases h
  case lock => exact absurd rfl hlock
  case unlock => exact absurd rfl hunlock
  case handshakeError | identifyError | openFresh | evictFresh => exact locked_leave _ rfl
  case decideNamespace => exact locked_decided ..
  case decideGlobal => exact locked_decided ..
  all_goals rfl

theorem Move.unlocksOnce (h : Move proxy shared s i addr pc effect conn out)
    (hunlock : effect ≠ .unlock) {other : SocketAddr} {next : Pc}
    (hconn : conn = .routing other next) : next.UnlocksOnce := by
  cases h <;> cases hconn
  case unlock => exact absurd rfl hunlock
  case handshakeError | identifyError | openFresh | evictFresh =>
    exact unlocksOnce_leave _ rfl
  case decideNamespace => exact unlocksOnce_decided ..
  case decideGlobal => exact unlocksOnce_decided ..
  case recheck | full => exact rfl
  all_goals trivial

theorem Effect.creating_onPool (pool : MuxPool) (hlock : effect ≠ .lock)
    (hunlock : effect ≠ .unlock) : (effect.onPool i addr pool).creating = pool.creating := by
  cases effect <;> first | rfl | contradiction

theorem Move.of_lock (h : Move proxy shared s i addr pc .lock conn out) :
    s.pool.creating addr = none ∧
      ∃ next : Pc, conn = .routing addr next ∧ next.locked = true ∧ next.UnlocksOnce := by
  cases h
  case lock hfree => exact ⟨hfree, _, rfl, rfl, trivial⟩

theorem Move.of_unlock (h : Move proxy shared s i addr pc .unlock conn out) :
    ∃ next, pc = .unlocking next ∧ conn = .routing addr next := by
  cases h
  case unlock next => exact ⟨next, rfl, rfl⟩

/-! ## Steps keep the holders -/

private theorem Locks.once_set (h : Locks s)
    (hconn : ∀ other next, conn = .routing other next → next.UnlocksOnce) {j : Nat}
    {other : SocketAddr} {next : Pc}
    (hj : (s.conns.set i conn)[j]? = some (.routing other next)) : next.UnlocksOnce := by
  rcases Tasks.getElem?_set_cases hj with ⟨-, heq⟩ | ⟨-, hold⟩
  · exact hconn other next heq
  · exact h.once j other next hold

private theorem Locks.lock (h : Locks s) (hi : s.conns[i]? = some (.routing addr pc))
    (hfree : s.pool.creating addr = none) {next : Pc} (hnext : next.locked = true)
    (honce : next.UnlocksOnce) : Locks (s.perform i addr .lock (.routing addr next)) where
  holder j other pcJ hj hlocked := by
    simp only [State.perform, Effect.onPool, MuxPool.lock, Function.update_apply]
    rcases Tasks.getElem?_set_cases hj with ⟨rfl, heq⟩ | ⟨-, hold⟩
    · cases heq
      rw [if_pos rfl]
    · have hcreating := h.holder j other pcJ hold hlocked
      rw [if_neg (by rintro rfl; simp [hfree] at hcreating)]
      exact hcreating
  held j other hj := by
    simp only [State.perform, Effect.onPool, MuxPool.lock, Function.update_apply] at hj
    split at hj
    next heq =>
      cases hj
      subst heq
      exact ⟨next, Tasks.getElem?_set_of hi _, hnext⟩
    next hne =>
      obtain ⟨pcJ, hold, hlocked⟩ := h.held j other hj
      have hother : Conn.routing addr pc ≠ .routing other pcJ := by
        rintro ⟨⟩
        exact hne rfl
      exact ⟨pcJ, Tasks.getElem?_set_of_ne hi hold hother _, hlocked⟩
  once j other pcJ hj := by
    refine h.once_set ?_ hj
    rintro other next ⟨⟩
    exact honce

private theorem Locks.unlock (h : Locks s) {next : Pc}
    (hi : s.conns[i]? = some (.routing addr (.unlocking next))) :
    Locks (s.perform i addr .unlock (.routing addr next)) where
  holder j other pcJ hj hlocked := by
    have hnext := locked_of_unlocked (h.once i addr _ hi)
    rcases Tasks.getElem?_set_cases hj with ⟨-, heq⟩ | ⟨hne, hold⟩
    · cases heq
      simp [hnext] at hlocked
    · simp only [State.perform, Effect.onPool, MuxPool.unlock, Function.update_apply]
      rw [if_neg]
      · exact h.holder j other pcJ hold hlocked
      · rintro rfl
        exact hne (h.eq_of_locked hold hi hlocked rfl)
  held j other hj := by
    simp only [State.perform, Effect.onPool, MuxPool.unlock, Function.update_apply] at hj
    split at hj
    next => cases hj
    next hne =>
      obtain ⟨pcJ, hold, hlocked⟩ := h.held j other hj
      have hother : Conn.routing addr (.unlocking next) ≠ .routing other pcJ := by
        rintro ⟨⟩
        exact hne rfl
      exact ⟨pcJ, Tasks.getElem?_set_of_ne hi hold hother _, hlocked⟩
  once j other pcJ hj := by
    refine h.once_set ?_ hj
    rintro other pc ⟨⟩
    exact unlocksOnce_of_not_locked (locked_of_unlocked (h.once i addr _ hi))

private theorem Locks.keep (h : Locks s) (hi : s.conns[i]? = some (.routing addr pc))
    (hmove : Move proxy shared s i addr pc effect conn out)
    (hlock : effect ≠ .lock) (hunlock : effect ≠ .unlock) :
    Locks (s.perform i addr effect conn) where
  holder j other pcJ hj hlocked := by
    simp only [State.perform, Effect.creating_onPool s.pool hlock hunlock]
    rcases Tasks.getElem?_set_cases hj with ⟨rfl, heq⟩ | ⟨-, hold⟩
    · obtain rfl := hmove.routing_eq heq
      have hconn := hmove.locked_eq hlock hunlock
      rw [heq] at hconn
      exact h.holder j other pc hi (hconn.symm.trans hlocked)
    · exact h.holder j other pcJ hold hlocked
  held j other hj := by
    simp only [State.perform, Effect.creating_onPool s.pool hlock hunlock] at hj
    obtain ⟨pcJ, hold, hlocked⟩ := h.held j other hj
    by_cases hij : i = j
    · subst hij
      cases hi.symm.trans hold
      have hconn := (hmove.locked_eq hlock hunlock).trans hlocked
      cases conn with
      | routing other next =>
          obtain rfl := hmove.routing_eq rfl
          exact ⟨next, Tasks.getElem?_set_of hi _, hconn⟩
      | _ => cases hconn
    · exact ⟨pcJ, (List.getElem?_set_ne hij).trans hold, hlocked⟩
  once j other pcJ hj := h.once_set (fun _ _ heq => hmove.unlocksOnce hunlock heq) hj

theorem Locks.move (h : Locks s) (hi : s.conns[i]? = some (.routing addr pc))
    (hmove : Move proxy shared s i addr pc effect conn out) :
    Locks (s.perform i addr effect conn) := by
  by_cases hlock : effect = .lock
  · subst hlock
    obtain ⟨hfree, next, rfl, hnext, honce⟩ := hmove.of_lock
    exact h.lock hi hfree hnext honce
  · by_cases hunlock : effect = .unlock
    · subst hunlock
      obtain ⟨next, rfl, rfl⟩ := hmove.of_unlock
      exact h.unlock hi
    · exact h.keep hi hmove hlock hunlock

theorem Locks.initial (proxy : OutboundProxy) : Locks proxy.initial where
  holder i addr pc hi := by simp [OutboundProxy.initial] at hi
  held i addr hi := by simp [OutboundProxy.initial, MuxPool.new] at hi
  once i addr pc hi := by simp [OutboundProxy.initial] at hi

theorem locked_route (proxy : OutboundProxy) : proxy.route.locked = false := by
  unfold route
  split <;> rfl

theorem Locks.step (h : Locks s) (hview : View proxy shared s e s' out) : Locks s' := by
  cases hview with
  | quiet hquiet =>
      refine ⟨fun j addr pc hj hlocked => ?_, fun j addr hj => ?_, fun j addr pc hj => ?_⟩
      · rw [hquiet.pool]
        exact h.holder j addr pc ((hquiet.conns j addr pc).mp hj) hlocked
      · rw [hquiet.pool] at hj
        obtain ⟨pc, hpc, hlocked⟩ := h.held j addr hj
        exact ⟨pc, (hquiet.conns j addr pc).mpr hpc, hlocked⟩
      · exact h.once j addr pc ((hquiet.conns j addr pc).mp hj)
  | @enter _ i target _ hi addr =>
      have hroute := locked_route proxy
      refine ⟨fun j other pc hj hlocked => ?_, fun j other hj => ?_, fun j other pc hj => ?_⟩
      · rcases Tasks.getElem?_set_cases hj with ⟨-, heq⟩ | ⟨-, hold⟩
        · cases heq
          simp [hroute] at hlocked
        · exact h.holder j other pc hold hlocked
      · obtain ⟨pc, hpc, hlocked⟩ := h.held j other hj
        exact ⟨pc, Tasks.getElem?_set_of_ne hi hpc (by simp) _, hlocked⟩
      · refine h.once_set ?_ hj
        rintro other pc ⟨⟩
        exact unlocksOnce_of_not_locked hroute
  | move _ hi hmove => exact h.move hi hmove
  | driverExit => exact ⟨h.holder, h.held, h.once⟩
  | driverEvict => exact ⟨h.holder, h.held, h.once⟩

end Interlink.OutboundProxy
