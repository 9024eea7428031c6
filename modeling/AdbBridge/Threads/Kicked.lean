import AdbBridge.Threads.Places

/-!
# A transport that was kicked

`kick_transport` sets `kicked_` and stops the connection. A connection that is to be replaced
has been stopped before, so it is `kicked_` that has to keep the reconnect handler from
bringing the transport back. But the handler looks at it only while it scans its queue: a
transport that it has passed, that it is reconnecting or that it has given back to the
looper, is started again.

A transport that is kicked at any other time stays as it is.
-/

namespace AdbBridge

/-! ### Kicking in time -/

/-- How many attempts the handler has looked at. -/
def HandlerState.passed : HandlerState → ℕ
  | .scanning n | .erasing n => n
  | _ => 0

/-- Nobody is going to start a connection of a transport without looking at `kicked_`: the
handler does not hold it, it is not on its way back to the looper, and it is not first in the
queue with the scan already past it. -/
def Reconnect.Idle (s : Reconnect) (t : ℕ) : Prop :=
  s.handler.holds t = false ∧ .register t ∉ s.runQueue ∧
    ∀ a ∈ s.reconnectQueue.head?, 0 < s.handler.passed → a.transport ≠ t

instance (s : Reconnect) (t : ℕ) : Decidable (s.Idle t) := inferInstanceAs (Decidable (_ ∧ _))

/-- A transport is kicked only while it is idle. -/
def ReconnectOp.Timely (s : Reconnect) : ReconnectOp → Prop
  | .kick t => s.Idle t
  | _ => True

instance (s : Reconnect) (op : ReconnectOp) : Decidable (op.Timely s) := by
  induction op using ReconnectOp.casesOn <;> dsimp only [ReconnectOp.Timely] <;> infer_instance

/-- The runs in which transports are kicked in time. -/
def timelyReconnect : Machine Reconnect ReconnectOp :=
  reconnect.restrict fun s op => op.Timely s

namespace Reconnect

variable {s : Reconnect} {op : ReconnectOp} {t : ℕ}

/-! ### One step -/

theorem kicked_before (h : ((op.step s).transports t).kicked = true) :
    (s.transports t).kicked = true ∨ op = .kick t := by
  have hstep := tcpStep s op t
  generalize (op.step s).transports t = x at hstep h
  cases hstep with
  | kick hop => exact .inr hop
  | _ => exact .inl h

theorem kicked_step (op : ReconnectOp) (h : (s.transports t).kicked = true) :
    ((op.step s).transports t).kicked = true := by
  have hstep := tcpStep s op t
  generalize (op.step s).transports t = x at hstep ⊢
  cases hstep with
  | kick => rfl
  | _ => exact h

theorem passed_of_not_inSection {x : HandlerState} (h : x.inSection = false) : x.passed = 0 := by
  cases x with
  | scanning | erasing => exact absurd h (by simp [HandlerState.inSection])
  | _ => rfl

namespace Idle

theorem not_mem_tail (h : s.Idle t) : .register t ∉ s.runQueue.tail :=
  fun hmem => h.2.1 (List.mem_of_mem_tail hmem)

/-- The handler takes up no transport that was kicked: it has looked at the first one. -/
theorem holds_step (h : s.Idle t) (hen : op.Enabled s) : (op.step s).handler.holds t = false := by
  cases op with
  | connection _ _ _ | track _ _ =>
    rw [ReconnectOp.step]
    split <;> exact h.1
  | wake | retry _ _ =>
    rw [ReconnectOp.step]
    split <;> rfl
  | pop a now =>
    obtain ⟨hscan, hhead, -⟩ := hen
    have hpos : 0 < s.handler.passed := by
      rw [hscan]
      exact List.length_pos_of_mem (List.mem_of_mem_head? hhead)
    exact beq_eq_false_iff_ne.mpr (h.2.2 a hhead hpos)
  | connect a =>
    have hattempt : s.handler = .attempting a := hen
    have hholds := h.1
    rw [hattempt] at hholds
    exact hholds
  | scanKeep _ _ | scanRemove _ _ | scanErase _ | sleep _ | succeed _ | abort _ => rfl
  | _ => exact h.1

/-- It goes back to the looper from the handler only. -/
theorem register_step (h : s.Idle t) (ht : t < s.nextTransport) (hen : op.Enabled s) :
    .register t ∉ (op.step s).runQueue := by
  have hpost : ∀ {l : List Task} {task}, .register t ∉ l → task ≠ .register t →
      .register t ∉ l ++ [task] := by
    intro l task hl hne hmem
    rcases List.mem_append.mp hmem with hmem | hmem
    · exact hl hmem
    · exact hne (List.mem_singleton.mp hmem).symm
  cases op with
  | newTransport => exact hpost h.2.1 (by simp [ht.ne'])
  | connection _ _ _ | retry _ _ =>
    rw [ReconnectOp.step]
    split
    · exact hpost h.2.1 (by simp)
    · exact h.2.1
  | track _ _ =>
    rw [ReconnectOp.step]
    split <;> exact h.not_mem_tail
  | remove _ => exact hpost h.not_mem_tail (by simp)
  | runRegister _ | runUnregister _ => exact h.not_mem_tail
  | drain _ | scanRemove _ _ | abort _ => exact hpost h.2.1 (by simp)
  | succeed a =>
    have hconnected : s.handler = .connected a := hen
    have hholds := h.1
    rw [hconnected] at hholds
    refine hpost h.2.1 fun heq => ?_
    rw [Task.register.injEq] at heq
    exact beq_eq_false_iff_ne.mp hholds heq
  | _ => exact h.2.1

/-- The scan does not pass it. -/
theorem passed_step (h : s.Idle t) (hk : (s.transports t).kicked = true) (hen : op.Enabled s)
    {a : Attempt} (ha : a ∈ (op.step s).reconnectQueue.head?)
    (hpos : 0 < (op.step s).handler.passed) : a.transport ≠ t := by
  have hsection : ∀ {x : HandlerState}, 0 < x.passed → x.inSection ≠ false := fun hpos hin =>
    hpos.ne' (passed_of_not_inSection hin)
  cases op with
  | connection _ _ _ =>
    rw [ReconnectOp.step] at ha hpos
    split at ha <;> split at hpos <;> exact h.2.2 a ha hpos
  | track _ _ =>
    refine absurd hen.2.2 (hsection ?_)
    rw [ReconnectOp.step] at hpos
    split at hpos <;> exact hpos
  | drain _ => exact absurd (by rw [hen.2.1]; rfl) (hsection (by exact hpos : 0 < s.handler.passed))
  | wake | retry _ _ =>
    rw [ReconnectOp.step] at hpos
    split at hpos <;> exact absurd hpos (lt_irrefl 0)
  | scanKeep n b =>
    obtain ⟨hscan, hget, hb⟩ := hen
    rcases Nat.eq_zero_or_pos n with rfl | hn
    · -- The scan passes the first attempt now.
      rw [← List.head?_eq_getElem?] at hget
      obtain rfl : b = a := Option.some.inj (hget.symm.trans ha)
      rintro rfl
      exact absurd (hk.symm.trans hb) (by simp)
    · exact h.2.2 a ha (by rw [hscan]; exact hn)
  | scanRemove n b => exact h.2.2 a ha (by rw [hen.1]; exact hpos)
  | scanErase n =>
    have herase : s.handler = .erasing n := hen
    have hn : 0 < n := hpos
    refine h.2.2 a ?_ (by rw [herase]; exact hn)
    rwa [ReconnectOp.step, List.head?_eq_getElem?, List.getElem?_eraseIdx_of_lt hn,
      ← List.head?_eq_getElem?] at ha
  | sleep _ | pop _ _ | connect _ | succeed _ | abort _ => exact absurd hpos (lt_irrefl 0)
  | _ => exact h.2.2 a ha hpos

theorem step (h : s.Idle t) (hk : (s.transports t).kicked = true) (ht : t < s.nextTransport)
    (hen : op.Enabled s) : (op.step s).Idle t :=
  ⟨h.holds_step hen, h.register_step ht hen, fun _ => h.passed_step hk hen⟩

/-- Only a task of `register_transport` starts a connection. -/
theorem starts_step (h : s.Idle t) (hen : op.Enabled s) :
    ((op.step s).transports t).starts = (s.transports t).starts := by
  have hstep := tcpStep s op t
  generalize (op.step s).transports t = x at hstep ⊢
  cases hstep with
  | register hop =>
    subst hop
    exact absurd (List.mem_of_mem_head? hen.2.1) h.2.1
  | _ => rfl

end Idle

/-! ### Whole runs -/

/-- In a timely run, a transport that has been kicked is idle. -/
theorem idle_of_reach (h : timelyReconnect.Reach s) :
    ∀ t, (s.transports t).kicked = true → s.Idle t := by
  refine Machine.Reach.inv (M := timelyReconnect)
    (P := fun s => ∀ t, (s.transports t).kicked = true → s.Idle t) ?_ ?_ h
  · rintro _ rfl t ht
    exact absurd ht (by simp)
  · intro s op hreach hidle hen t ht
    rcases kicked_before ht with hbefore | rfl
    · have hlt : t < s.nextTransport := by
        by_contra hge
        rw [(Ok.of_reach hreach.of_restrict).fresh t (not_lt.mp hge)] at hbefore
        exact absurd hbefore (by simp)
      exact (hidle t hbefore).step hbefore hlt hen.1
    · exact hen.2

end Reconnect

/-- **A transport that was kicked stays disconnected**, in every run in which transports are
kicked while they are idle: no connection is started from then on. -/
theorem starts_of_kicked {s : Reconnect} (h : timelyReconnect.Reach s) {t : ℕ}
    (hk : (s.transports t).kicked = true) {ops : List ReconnectOp}
    (hl : timelyReconnect.Legal s ops) :
    ((timelyReconnect.run s ops).transports t).starts = (s.transports t).starts := by
  induction ops generalizing s with
  | nil => rfl
  | cons op ops ih =>
    obtain ⟨hen, hl⟩ := hl
    have hstep := (Reconnect.idle_of_reach h t hk).starts_step hen.1
    exact (ih (h.step hen) (Reconnect.kicked_step op hk) hl).trans hstep

/-- The handler gives up on the transport, and the looper deletes it. -/
def giveUp : List ReconnectOp :=
  [.scanRemove 0 ⟨0, 250, kMaxAttempts⟩, .scanErase 0, .sleep 250, .runUnregister 0]

theorem starts_of_kicked_waiting :
    ((timelyReconnect.run (reconnect.run {} kickWaiting) giveUp).transports 0).starts = 1 := by
  have hinit : timelyReconnect.Reach {} := .init rfl
  have hlegal : timelyReconnect.Legal {} kickWaiting :=
    Machine.Legal.restrict (by decide +kernel) (by decide +kernel)
  have hlegal' : timelyReconnect.Legal (reconnect.run {} kickWaiting) giveUp :=
    Machine.Legal.restrict (by decide +kernel) (by decide +kernel)
  exact starts_of_kicked (hinit.run hlegal) (t := 0) (by decide +kernel) hlegal'

/-- The handler looks at the transport, which has not been kicked yet. -/
def reconnecting : List ReconnectOp := breaking ++ [.wake, .scanKeep 0 ⟨0, 250, kMaxAttempts⟩]

/-- The last operation starts a connection of a transport that was kicked before. -/
def StartsKicked (ops : List ReconnectOp) : Prop :=
  reconnect.Legal {} ops ∧ ((reconnect.run {} ops.dropLast).transports 0).kicked = true ∧
    ((reconnect.run {} ops.dropLast).transports 0).starts = 1 ∧
      ((reconnect.run {} ops).transports 0).starts = 2

instance (ops : List ReconnectOp) : Decidable (StartsKicked ops) :=
  inferInstanceAs (Decidable (_ ∧ _))

/-- **The handler brings a transport back that was kicked**, after the scan has passed it,
while it is being reconnected, and after that. -/
theorem started_after_kick :
    StartsKicked (reconnecting ++ [.kick 0, .pop ⟨0, 250, kMaxAttempts⟩ 250,
        .connect ⟨0, 250, kMaxAttempts⟩, .succeed ⟨0, 250, kMaxAttempts⟩, .runRegister 0]) ∧
      StartsKicked (reconnecting ++ [.pop ⟨0, 250, kMaxAttempts⟩ 250, .kick 0,
        .connect ⟨0, 250, kMaxAttempts⟩, .succeed ⟨0, 250, kMaxAttempts⟩, .runRegister 0]) ∧
      StartsKicked (reconnecting ++ [.pop ⟨0, 250, kMaxAttempts⟩ 250,
        .connect ⟨0, 250, kMaxAttempts⟩, .succeed ⟨0, 250, kMaxAttempts⟩, .kick 0,
          .runRegister 0]) := by
  decide +kernel

end AdbBridge
