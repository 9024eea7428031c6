import AdbBridge.Threads.Reconnect

/-!
# Every transport has one owner

A transport is handed from its connection to the looper, from the looper to the reconnect
handler and back. `Reconnect.load` counts the places a transport is in, and how often it has
been deleted. No operation changes the count (`Ok.load_step`), so it stays at one from the
registration of the transport on.

An attempt that the scan of the handler is about to erase is not counted: the task that
deletes its transport has been posted already. This is the one moment at which a transport
is in two places, and at which it is deleted while it is in one.
-/

namespace AdbBridge

open List

/-! ### Counting -/

section Counting

variable {α : Type*} {l : List α} {a : α} {n : ℕ} (p : α → Bool)

theorem countP_of_head? (h : l.head? = some a) : l.countP p = l.tail.countP p + (p a).toNat := by
  cases l with
  | nil => simp at h
  | cons b l =>
    obtain rfl : b = a := by simpa using h
    cases hp : p b <;> simp [hp]

theorem countP_concat : (l ++ [a]).countP p = l.countP p + (p a).toNat := by
  cases hp : p a <;> simp [hp]

theorem countP_eraseIdx (h : l[n]? = some a) :
    l.countP p = (l.eraseIdx n).countP p + (p a).toNat := by
  obtain ⟨hn, rfl⟩ := List.getElem?_eq_some_iff.mp h
  rw [← (getElem_cons_eraseIdx_perm hn).countP_eq p, countP_cons]
  cases hp : p l[n] <;> simp

end Counting

theorem countP_emplace (p : Attempt → Bool) (l : List Attempt) (a : Attempt) :
    (l.orderedInsert Attempt.Before a).countP p = l.countP p + (p a).toNat := by
  rw [(perm_orderedInsert Attempt.Before a l).countP_eq p, countP_cons]
  cases hp : p a <;> simp

/-! ### The invariant -/

/-- What a transport counts by itself. -/
def Tcp.share (x : Tcp) : ℕ := x.unregistered + x.isRunning.toNat

/-- How often a transport is among the attempts and in the hands of the handler. -/
def HandlerState.count (queue : List Attempt) (t : ℕ) : HandlerState → ℕ
  | .erasing n => (queue.eraseIdx n).countP (·.transport == t)
  | .attempting a | .connected a =>
    queue.countP (·.transport == t) + (a.transport == t).toNat
  | _ => queue.countP (·.transport == t)

namespace Reconnect

/-- How many tasks there are for a transport. -/
def tasks (s : Reconnect) (t : ℕ) : ℕ := s.runQueue.countP (·.transport == t)

/-- How many attempts there are for a transport. -/
def waiting (s : Reconnect) (t : ℕ) : ℕ := s.attempts.countP (·.transport == t)

/-- How often a transport has been deleted, and in how many places it is. -/
def load (s : Reconnect) (t : ℕ) : ℕ :=
  (s.transports t).unregistered + ((s.transports t).isRunning.toNat + s.tasks t + s.waiting t +
    (s.handler.holds t).toNat)

/-- What holds in every state. -/
structure Ok (s : Reconnect) : Prop where
  sound : ∀ t k, ((s.transports t).conns k).Sound
  /-- A transport that has not been registered is nowhere. -/
  fresh : ∀ t, s.nextTransport ≤ t → s.transports t = {}
  /-- A connection that has been replaced has reported an error. -/
  old : ∀ t k, k < (s.transports t).conn → ((s.transports t).conns k).reported = true
  /-- A connection that has not been started is going to be. -/
  unstarted : ∀ t, t < s.nextTransport → (s.transports t).connection.started = false →
    .register t ∈ s.runQueue ∨ ∃ a, s.handler = .connected a ∧ a.transport = t
  /-- As long as the looper runs tasks, the handler accepts transports. -/
  running : s.looper ≠ .exiting → s.running = true
  /-- The task is posted before the attempt is erased. -/
  erasing : ∀ t, s.isErasing t = true →
    0 < (s.transports t).unregistered ∨ .unregister t ∈ s.runQueue
  load : ∀ t, s.load t = if t < s.nextTransport then 1 else 0

variable {s s' : Reconnect} {t u : ℕ} {task : Task} {a : Attempt} {f : Tcp → Tcp} {op : ReconnectOp}

theorem tasks_of_head? (h : s.runQueue.head? = some task) (t : ℕ) :
    s.tasks t = s.runQueue.tail.countP (·.transport == t) + (task.transport == t).toNat :=
  countP_of_head? _ h

theorem load_eq (s : Reconnect) (t : ℕ) :
    s.load t = (s.transports t).share + s.tasks t + s.handler.count s.reconnectQueue t := by
  have hcount : s.handler.count s.reconnectQueue t = s.waiting t + (s.handler.holds t).toNat := by
    unfold waiting attempts
    cases s.handler <;> rfl
  rw [hcount, Reconnect.load, Tcp.share]
  omega

/-! ### Passing a transport on -/

theorem load_post (s : Reconnect) (task : Task) (t : ℕ) :
    (s.post task).load t = s.load t + (task.transport == t).toNat := by
  have htasks : (s.post task).tasks t = s.tasks t + (task.transport == t).toNat := countP_concat _
  rw [load_eq, load_eq, htasks]
  exact (congrArg (· + _) (Nat.add_assoc _ _ _).symm).trans (Nat.add_right_comm _ _ _)

theorem load_tail (h : s.runQueue.head? = some task) (looper : LooperState) (t : ℕ) :
    ({ s with runQueue := s.runQueue.tail, looper := looper } : Reconnect).load t +
      (task.transport == t).toNat = s.load t := by
  rw [load_eq, load_eq, tasks_of_head? h]
  exact (Nat.add_right_comm _ _ _).trans (congrArg (· + _) (Nat.add_assoc _ _ _))

/-- A new attempt is one more place for its transport. -/
theorem load_emplace (h : s.handler.inSection = false) (a : Attempt) (t : ℕ) :
    (s.emplace a).load t = s.load t + (a.transport == t).toNat := by
  have hcount : s.handler.count (s.emplace a).reconnectQueue t =
      s.handler.count s.reconnectQueue t + (a.transport == t).toNat := by
    have hqueue := countP_emplace (·.transport == t) s.reconnectQueue a
    revert h
    cases s.handler with
    | scanning | erasing => exact nofun
    | idle | finished => exact fun _ => hqueue
    | attempting | connected =>
      intro _
      exact (congrArg (· + _) hqueue).trans (Nat.add_right_comm _ _ _)
  rw [load_eq, load_eq]
  exact (congrArg (_ + ·) hcount).trans (Nat.add_assoc _ _ _).symm

/-- The handler goes on, and passes `d` of what it counts to somebody else. -/
theorem load_handler (next : HandlerState) (queue : List Attempt) {d : ℕ}
    (h : next.count queue t + d = s.handler.count s.reconnectQueue t) :
    ({ s with handler := next, reconnectQueue := queue } : Reconnect).load t + d = s.load t := by
  rw [load_eq, load_eq, ← h]
  exact Nat.add_assoc _ _ _

theorem load_handler_eq (next : HandlerState) (queue : List Attempt)
    (h : next.count queue t = s.handler.count s.reconnectQueue t) :
    ({ s with handler := next, reconnectQueue := queue } : Reconnect).load t = s.load t :=
  load_handler next queue (d := 0) h

/-- The handler lets go of the transport it has in its hands. -/
theorem load_release (h : s.handler = .attempting a ∨ s.handler = .connected a)
    (t : ℕ) : ({ s with handler := .idle } : Reconnect).load t + (a.transport == t).toNat =
      s.load t := by
  refine load_handler .idle s.reconnectQueue ?_
  rcases h with h | h <;> rw [h] <;> rfl

theorem updTcp_self (f : Tcp → Tcp) : (s.updTcp t f).transports t = f (s.transports t) := by
  simp [updTcp]

theorem updTcp_of_ne (f : Tcp → Tcp) (h : u ≠ t) :
    (s.updTcp t f).transports u = s.transports u := by
  simp [updTcp, h]

/-- An update of a transport adds `e` to what it counts, and takes away `d`. -/
theorem load_updTcp (d e : ℕ) (h : (f (s.transports u)).share + d = (s.transports u).share + e)
    (t : ℕ) : (s.updTcp u f).load t + d * (u == t).toNat = s.load t + e * (u == t).toNat := by
  have hrest : (s.updTcp u f).load t = ((s.updTcp u f).transports t).share + s.tasks t +
      s.handler.count s.reconnectQueue t := load_eq _ t
  rw [hrest, load_eq]
  by_cases htu : t = u
  · subst htu
    rw [updTcp_self, beq_self_eq_true, Bool.toNat_true]
    omega
  · rw [updTcp_of_ne _ htu, beq_eq_false_iff_ne.mpr (Ne.symm htu), Bool.toNat_false]
    omega

theorem load_updTcp_eq (h : (f (s.transports u)).share = (s.transports u).share)
    (t : ℕ) : (s.updTcp u f).load t = s.load t := by
  have hsame := load_updTcp 0 0 h t
  rwa [Nat.zero_mul] at hsame

/-- A task is run that leaves its transport to itself. -/
theorem load_runTask (hhead : s.runQueue.head? = some task) (hu : task.transport = u)
    (h : (f (s.transports u)).share = (s.transports u).share + 1) (t : ℕ) :
    (({ s with runQueue := s.runQueue.tail } : Reconnect).updTcp u f).load t = s.load t := by
  subst hu
  have hmoved := load_updTcp (s := { s with runQueue := s.runQueue.tail }) 0 1 h t
  rw [Nat.zero_mul, Nat.one_mul] at hmoved
  exact hmoved.trans (load_tail hhead s.looper t)

theorem isRunning_updConn (x : Tcp) (k : ℕ) (c : Adapter) :
    (x.updConn k c).isRunning = if k = x.conn then c.started && !c.reported else x.isRunning := by
  unfold Tcp.isRunning Tcp.connection Tcp.updConn
  split
  · rename_i hk
    simp [hk]
  · rename_i hk
    simp [Ne.symm hk]

/-- What an operation can do to a transport. -/
inductive TcpStep (s : Reconnect) (op : ReconnectOp) (t : ℕ) : Tcp → Prop
  | same : TcpStep s op t (s.transports t)
  | kick : op = .kick t → TcpStep s op t { s.transports t with kicked := true }
  | connection (k : ℕ) (o : AdapterOp) : op = .connection t k o →
      TcpStep s op t ((s.transports t).updConn k (o.step ((s.transports t).conns k)))
  | register : op = .runRegister t →
      TcpStep s op t { (s.transports t).updConn (s.transports t).conn
        (AdapterOp.start.step (s.transports t).connection) with
          starts := (s.transports t).starts + 1 }
  | unregister : op = .runUnregister t →
      TcpStep s op t { s.transports t with unregistered := (s.transports t).unregistered + 1 }
  | connect (a : Attempt) : op = .connect a → a.transport = t →
      TcpStep s op t { (s.transports t).updConn ((s.transports t).conn + 1) {} with
        conn := (s.transports t).conn + 1 }

theorem tcpStep_updTcp (h : TcpStep s op u (f (s.transports u))) (t : ℕ) :
    TcpStep s op t ((s.updTcp u f).transports t) := by
  by_cases htu : t = u
  · subst htu
    rwa [updTcp_self]
  · rw [updTcp_of_ne _ htu]
    exact .same

/-- **Everything that an operation does to a transport.** -/
theorem tcpStep (s : Reconnect) (op : ReconnectOp) (t : ℕ) :
    TcpStep s op t ((op.step s).transports t) := by
  cases op with
  | kick u => exact tcpStep_updTcp (f := ({ · with kicked := true })) (.kick rfl) t
  | connection u k o =>
    have hstep := tcpStep_updTcp (f := (·.updConn k (o.step ((s.transports u).conns k))))
      (.connection k o rfl) t
    rw [ReconnectOp.step]
    split <;> exact hstep
  | runRegister u =>
    exact tcpStep_updTcp (f := fun x =>
      { x.updConn x.conn (AdapterOp.start.step x.connection) with starts := x.starts + 1 })
      (.register rfl) t
  | runUnregister u =>
    exact tcpStep_updTcp (f := fun x => { x with unregistered := x.unregistered + 1 })
      (.unregister rfl) t
  | connect a =>
    exact tcpStep_updTcp (f := fun x => { x.updConn (x.conn + 1) {} with conn := x.conn + 1 })
      (.connect a rfl rfl) t
  | track u now | retry a now =>
    rw [ReconnectOp.step]
    split <;> exact .same
  | _ => exact .same

/-- Only `register_socket_transport` makes a transport. -/
theorem eq_newTransport (hlt : ¬ t < s.nextTransport)
    (ht : t < (op.step s).nextTransport) : op = .newTransport ∧ t = s.nextTransport := by
  cases op with
  | newTransport =>
    have ht : t < s.nextTransport + 1 := ht
    exact ⟨rfl, by omega⟩
  | connection _ _ _ | track _ _ | retry _ _ =>
    rw [ReconnectOp.step] at ht
    split at ht <;> exact absurd ht hlt
  | _ => exact absurd ht hlt

theorem nextTransport_le_step (op : ReconnectOp) : s.nextTransport ≤ (op.step s).nextTransport := by
  cases op with
  | newTransport => exact Nat.le_succ _
  | connection _ _ _ | track _ _ | retry _ _ =>
    rw [ReconnectOp.step]
    split <;> exact le_rfl
  | _ => exact le_rfl

namespace Ok

variable {op : ReconnectOp} {a : Attempt}

/-! ### Where a transport is not -/

theorem lt_of_load (h : s.Ok) (hload : s.load t ≠ 0) : t < s.nextTransport := by
  by_contra hlt
  exact hload (by rw [h.load t, if_neg hlt])

theorem load_eq_one (h : s.Ok) (hload : s.load t ≠ 0) : s.load t = 1 := by
  rw [h.load t, if_pos (h.lt_of_load hload)]

/-- A transport with a task has just this one. -/
theorem of_task (h : s.Ok) {task : Task} (hhead : s.runQueue.head? = some task) :
    task.transport < s.nextTransport ∧ (s.transports task.transport).isRunning = false ∧
      s.runQueue.tail.countP (·.transport == task.transport) = 0 ∧
        s.handler.holds task.transport = false := by
  have hcount := tasks_of_head? hhead task.transport
  rw [beq_self_eq_true, Bool.toNat_true] at hcount
  have hload : s.load task.transport ≠ 0 := by
    unfold Reconnect.load
    omega
  have hone := h.load_eq_one hload
  unfold Reconnect.load at hone
  refine ⟨h.lt_of_load hload, ?_, by omega, ?_⟩
  · exact Bool.toNat_eq_zero.mp (by omega)
  · exact Bool.toNat_eq_zero.mp (by omega)

/-- A transport in the hands of the handler is nowhere else. -/
theorem of_holds (h : s.Ok) (hholds : s.handler.holds t = true) :
    t < s.nextTransport ∧ (s.transports t).isRunning = false ∧
      s.tasks t = 0 := by
  have hload : s.load t ≠ 0 := by
    unfold Reconnect.load
    rw [hholds, Bool.toNat_true]
    omega
  have hone := h.load_eq_one hload
  unfold Reconnect.load at hone
  rw [hholds, Bool.toNat_true] at hone
  exact ⟨h.lt_of_load hload, Bool.toNat_eq_zero.mp (by omega), by omega⟩

/-- The connection that the handler replaces has been started, and has reported an
error. -/
theorem reported_of_attempting (h : s.Ok) (ha : s.handler = .attempting a) :
    (s.transports a.transport).connection.reported = true := by
  obtain ⟨hlt, hrun, hcount⟩ := h.of_holds (t := a.transport) (by simp [ha, HandlerState.holds])
  have hstarted : (s.transports a.transport).connection.started = true := by
    by_contra hs
    rcases h.unstarted _ hlt (by simpa using hs) with hmem | ⟨b, hb, -⟩
    · have hpos := countP_eq_zero.mp hcount _ hmem
      exact hpos (by simp [Task.transport])
    · exact absurd (ha.symm.trans hb) (by simp)
  unfold Tcp.isRunning at hrun
  simpa [hstarted] using hrun

/-! ### One step -/

/-- Starting a connection takes its transport from the looper to the connection. -/
theorem load_runRegister (h : s.Ok) (hen : (ReconnectOp.runRegister u).Enabled s) (t : ℕ) :
    ((ReconnectOp.runRegister u).step s).load t = s.load t := by
  obtain ⟨-, hhead, -, hstarted⟩ := hen
  have hreported : (s.transports u).connection.reported = false :=
    (h.sound u (s.transports u).conn hstarted).2.2.2.2.2.1
  have hbefore : (s.transports u).isRunning = false := by simp [Tcp.isRunning, hstarted]
  rw [Tcp.connection] at hreported
  rw [ReconnectOp.step]
  refine load_runTask hhead rfl ?_ t
  show _ + (Tcp.isRunning _).toNat = (s.transports u).unregistered +
    (s.transports u).isRunning.toNat + 1
  rw [hbefore]
  simp [Task.transport, Tcp.isRunning, Tcp.updConn, Tcp.connection, AdapterOp.step,
    Adapter.startReadThread, hreported]

/-- A new connection is not running yet, and the old one is not any more. -/
theorem load_connect (h : s.Ok) (hen : (ReconnectOp.connect a).Enabled s) (t : ℕ) :
    ((ReconnectOp.connect a).step s).load t = s.load t := by
  have hattempt : s.handler = .attempting a := hen
  obtain ⟨-, hrun, -⟩ := h.of_holds (t := a.transport) (by simp [hattempt, HandlerState.holds])
  rw [ReconnectOp.step, load_updTcp_eq]
  · exact load_handler_eq (.connected a) s.reconnectQueue (by rw [hattempt]; rfl)
  · show _ + (Tcp.isRunning _).toNat = (s.transports a.transport).unregistered +
      (s.transports a.transport).isRunning.toNat
    rw [hrun]
    simp [Tcp.isRunning, Tcp.updConn, Tcp.connection]

/-- Nothing a connection does changes the count: an error that is reported takes the
transport from the connection to the looper. -/
theorem load_connection (h : s.Ok) {k : ℕ} {op : AdapterOp}
    (hen : (ReconnectOp.connection u k op).Enabled s) (t : ℕ) :
    ((ReconnectOp.connection u k op).step s).load t = s.load t := by
  obtain ⟨-, hk, hop, hen⟩ := hen
  rw [ReconnectOp.step]
  set c := (s.transports u).conns k with hc
  by_cases hreports : (!c.reported && (op.step c).reported) = true
  · -- An error is reported for the first time, so this is the current connection.
    rw [if_pos hreports, load_post]
    obtain ⟨hbefore, hafter⟩ : c.reported = false ∧ (op.step c).reported = true := by
      simpa using hreports
    have hcurrent : k = (s.transports u).conn := by
      by_contra hne
      have hold := h.old u k (by omega)
      rw [← hc, hbefore] at hold
      exact absurd hold (by simp)
    have hstarted : c.started = true := (h.sound u k).started_of_report hen hop hafter
    have hrun : (s.transports u).isRunning = true := by
      rw [Tcp.isRunning, Tcp.connection, ← hcurrent, ← hc, hstarted, hbefore]
      rfl
    have hshare : ((s.transports u).updConn k (op.step c)).share + 1 =
        (s.transports u).share + 0 := by
      rw [Tcp.share, Tcp.share, isRunning_updConn, if_pos hcurrent, hafter, hrun, Bool.not_true,
        Bool.and_false]
      rfl
    have hmoved := load_updTcp (f := (·.updConn k (op.step c))) 1 0 hshare t
    rwa [Nat.one_mul, Nat.zero_mul] at hmoved
  · rw [if_neg hreports]
    have hsame : (op.step c).reported = c.reported := by
      cases hr : c.reported with
      | true => exact Adapter.reported_step hr
      | false => simpa [hr] using hreports
    refine load_updTcp_eq ?_ t
    rw [Tcp.share, Tcp.share, isRunning_updConn]
    split
    · rename_i hcurrent
      rw [Adapter.started_step hop, hsame, Tcp.isRunning, Tcp.connection, ← hcurrent]
      rfl
    · rfl

/-- Only `register_socket_transport` adds to the count. -/
theorem load_step (h : s.Ok) (hen : op.Enabled s) (hop : op ≠ .newTransport) (t : ℕ) :
    (op.step s).load t = s.load t := by
  cases op with
  | newTransport => exact absurd rfl hop
  | kick u =>
    rw [ReconnectOp.step]
    exact load_updTcp_eq rfl t
  | connection u k op => exact h.load_connection hen t
  | takeError | errorStopped | cleanup => rfl
  | track u now =>
    obtain ⟨hlooper, hhead, hsection⟩ := hen
    have hrunning := h.running (by rw [hlooper]; simp)
    rw [ReconnectOp.step, if_pos hrunning, load_emplace (by exact hsection)]
    exact load_tail hhead .idle t
  | remove u =>
    rw [ReconnectOp.step, load_post]
    exact load_tail hen.2 .idle t
  | runRegister u => exact h.load_runRegister hen t
  | runUnregister u =>
    rw [ReconnectOp.step]
    exact load_runTask hen.2 rfl (Nat.add_right_comm _ _ _) t
  | drain a =>
    obtain ⟨-, hfinished, hhead⟩ := hen
    have hcount := (countP_of_head? (·.transport == t) hhead).symm
    rw [ReconnectOp.step, load_post]
    exact load_handler s.handler s.reconnectQueue.tail (by rw [hfinished]; exact hcount)
  | wake =>
    have hidle : s.handler = .idle := hen
    rw [ReconnectOp.step]
    split <;> exact load_handler_eq _ s.reconnectQueue (by rw [hidle]; rfl)
  | scanKeep n a => exact load_handler_eq (.scanning (n + 1)) s.reconnectQueue (by rw [hen.1]; rfl)
  | scanRemove n a =>
    have hcount := (countP_eraseIdx (·.transport == t) hen.2.1).symm
    rw [ReconnectOp.step, load_post]
    exact load_handler (.erasing n) s.reconnectQueue (by rw [hen.1]; exact hcount)
  | scanErase n =>
    have herase : s.handler = .erasing n := hen
    exact load_handler_eq (.scanning n) (s.reconnectQueue.eraseIdx n) (by rw [herase]; rfl)
  | sleep now => exact load_handler_eq .idle s.reconnectQueue (by rw [hen.1]; rfl)
  | pop a now =>
    have hcount := (countP_of_head? (·.transport == t) hen.2.1).symm
    exact load_handler_eq (.attempting a) s.reconnectQueue.tail (by rw [hen.1]; exact hcount)
  | retry a now =>
    have hidle := load_release (.inl hen) t
    rw [ReconnectOp.step]
    split
    · rw [load_post]
      exact hidle
    · rw [load_emplace rfl]
      exact hidle
  | connect a => exact h.load_connect hen t
  | succeed a =>
    rw [ReconnectOp.step, load_post]
    exact load_release (.inr hen) t
  | abort a =>
    rw [ReconnectOp.step, load_post]
    exact load_release (.inl hen) t

/-! ### The connections -/

/-- The connections stay sound. -/
theorem sound_step (h : s.Ok) (hen : op.Enabled s) (t k : ℕ) :
    (((op.step s).transports t).conns k).Sound := by
  have hset : ∀ {i c}, c.Sound → (((s.transports t).updConn i c).conns k).Sound := by
    intro i c hc
    by_cases hk : k = i
    · simpa [Tcp.updConn, hk] using hc
    · simpa [Tcp.updConn, hk] using h.sound t k
  have hstep := tcpStep s op t
  generalize (op.step s).transports t = x at hstep ⊢
  cases hstep with
  | same | kick | unregister => exact h.sound t k
  | connection i o hop =>
    subst hop
    exact hset ((h.sound t i).step hen.2.2.2)
  | register hop =>
    subst hop
    exact hset ((h.sound t _).step hen.2.2)
  | connect => exact hset .init

/-- A transport that has not been registered stays nowhere. -/
theorem fresh_step (h : s.Ok) (hen : op.Enabled s) (t : ℕ)
    (ht : (op.step s).nextTransport ≤ t) : (op.step s).transports t = {} := by
  have hle : s.nextTransport ≤ t := (nextTransport_le_step op).trans ht
  have hstep := tcpStep s op t
  generalize (op.step s).transports t = x at hstep ⊢
  -- An operation on a transport finds it in one of the places.
  have hlt : t < s.nextTransport → x = {} := fun hlt => absurd hlt (not_lt.mpr hle)
  cases hstep with
  | same => exact h.fresh t hle
  | kick hop | connection _ _ hop =>
    subst hop
    exact hlt hen.1
  | register hop =>
    subst hop
    exact hlt (h.of_task hen.2.1).1
  | unregister hop =>
    subst hop
    exact hlt (h.of_task hen.2).1
  | connect a hop hat =>
    subst hop
    have ha : s.handler = .attempting a := hen
    exact hlt (h.of_holds (by simp [ha, HandlerState.holds, hat])).1

/-- A connection that is replaced has reported an error. -/
theorem old_step (h : s.Ok) (hen : op.Enabled s) (t k : ℕ)
    (hk : k < ((op.step s).transports t).conn) :
    (((op.step s).transports t).conns k).reported = true := by
  have hstep := tcpStep s op t
  generalize (op.step s).transports t = x at hk hstep ⊢
  cases hstep with
  | same | kick | unregister => exact h.old t k hk
  | connection i o =>
    by_cases hki : k = i
    · subst hki
      simpa [Tcp.updConn] using Adapter.reported_step (h.old t k hk)
    · simpa [Tcp.updConn, hki] using h.old t k hk
  | register =>
    have hk : k < (s.transports t).conn := hk
    simpa [Tcp.updConn, hk.ne] using h.old t k hk
  | connect a hop hat =>
    subst hop hat
    have hk : k < (s.transports a.transport).conn + 1 := hk
    have hreported : ((s.transports a.transport).conns k).reported = true := by
      rcases Nat.lt_succ_iff_lt_or_eq.mp hk with hlt | rfl
      · exact h.old _ k hlt
      · exact h.reported_of_attempting hen
    simpa [Tcp.updConn, hk.ne] using hreported

/-! ### What is going to be started -/

end Ok

theorem mem_tail_of_head? {task' : Task} (hmem : task ∈ s.runQueue)
    (hhead : s.runQueue.head? = some task') (hne : task ≠ task') : task ∈ s.runQueue.tail := by
  rcases mem_cons.mp ((List.cons_head?_tail hhead).symm ▸ hmem) with h | h
  · exact absurd h hne
  · exact h

/-- A task of `register_transport` or `remove_transport` stays on the queue until it is
run. -/
theorem mem_step (hen : op.Enabled s) (hmem : task ∈ s.runQueue)
    (herror : ∀ u, task ≠ .handleError u) (hregister : ∀ u, task = .register u →
      op ≠ .runRegister u)
    (hunregister : ∀ u, task = .unregister u → op ≠ .runUnregister u) :
    task ∈ (op.step s).runQueue := by
  cases op with
  | connection u k op =>
    rw [ReconnectOp.step]
    split
    · exact mem_append_left _ hmem
    · exact hmem
  | track u now =>
    have htail := mem_tail_of_head? hmem hen.2.1 (herror u)
    rw [ReconnectOp.step]
    split <;> exact htail
  | remove u => exact mem_append_left _ (mem_tail_of_head? hmem hen.2 (herror u))
  | runRegister u => exact mem_tail_of_head? hmem hen.2.1 fun h => hregister u h rfl
  | runUnregister u => exact mem_tail_of_head? hmem hen.2 fun h => hunregister u h rfl
  | retry a now =>
    rw [ReconnectOp.step]
    split
    · exact mem_append_left _ hmem
    · exact hmem
  | newTransport | drain a | scanRemove n a | succeed a | abort a =>
    exact mem_append_left _ hmem
  | _ => exact hmem

/-- A new connection stays in the hands of the handler until it is passed to the looper. -/
theorem connected_step (hen : op.Enabled s)
    (ha : s.handler = .connected a) (hop : op ≠ .succeed a) :
    (op.step s).handler = .connected a := by
  cases op with
  | connection _ _ _ | track _ _ =>
    rw [ReconnectOp.step]
    split <;> exact ha
  | succeed b =>
    have hb : s.handler = .connected b := hen
    rw [ha, HandlerState.connected.injEq] at hb
    exact absurd (by rw [hb]) hop
  | drain _ => exact ha
  | wake | scanErase _ | retry _ _ | connect _ | abort _ =>
    exact absurd (ha.symm.trans hen) (by simp)
  | scanKeep _ _ | scanRemove _ _ | sleep _ | pop _ _ =>
    exact absurd (ha.symm.trans hen.1) (by simp)
  | _ => exact ha

/-- Only the handler replaces a connection by one that has not been started. -/
theorem unstarted_before (hen : op.Enabled s)
    (hun : ((op.step s).transports t).connection.started = false) :
    ((s.transports t).connection.started = false ∧ op ≠ .runRegister t) ∨
      ∃ a, op = .connect a ∧ a.transport = t := by
  by_cases hop : op = .runRegister t
  · subst hop
    rw [ReconnectOp.step, updTcp_self] at hun
    exact absurd hun (by simp [Tcp.connection, Tcp.updConn, AdapterOp.step,
      Adapter.startReadThread])
  · have hstep := tcpStep s op t
    generalize (op.step s).transports t = x at hstep hun
    cases hstep with
    | same | kick | unregister => exact .inl ⟨hun, hop⟩
    | connection k o hconn =>
      subst hconn
      refine .inl ⟨?_, hop⟩
      by_cases hk : (s.transports t).conn = k
      · rw [← Adapter.started_step hen.2.2.1]
        simpa [Tcp.connection, Tcp.updConn, hk] using hun
      · simpa [Tcp.connection, Tcp.updConn, hk] using hun
    | register h => exact absurd h hop
    | connect a hconnect hat => exact .inr ⟨a, hconnect, hat⟩

theorem unregistered_le_step (op : ReconnectOp) (t : ℕ) :
    (s.transports t).unregistered ≤ ((op.step s).transports t).unregistered := by
  have hstep := tcpStep s op t
  generalize (op.step s).transports t = x at hstep ⊢
  cases hstep with
  | unregister => exact Nat.le_succ _
  | _ => exact le_rfl

theorem isErasing_of_not_inSection (h : s.handler.inSection = false) : s.isErasing t = false := by
  unfold isErasing
  split
  · rename_i hn
    rw [hn] at h
    exact absurd h (by simp [HandlerState.inSection])
  · rfl

/-- Nobody touches the attempts while the handler is about to erase one. -/
theorem isErasing_before (hen : op.Enabled s) (ht : (op.step s).isErasing t = true) :
    s.isErasing t = true ∨ ∃ n a, op = .scanRemove n a ∧ a.transport = t := by
  cases op with
  | connection _ _ _ =>
    rw [ReconnectOp.step] at ht
    split at ht <;> exact .inl ht
  | track _ _ =>
    refine absurd ht ?_
    rw [ReconnectOp.step]
    split <;> rw [isErasing_of_not_inSection (by exact hen.2.2)] <;> simp
  | drain _ =>
    refine absurd ht ?_
    rw [ReconnectOp.step, isErasing_of_not_inSection]
    · simp
    · change s.handler.inSection = false
      rw [hen.2.1]
      rfl
  | wake | retry _ _ =>
    rw [ReconnectOp.step] at ht
    split at ht <;> exact absurd ht (by simp [isErasing, post, emplace])
  | scanRemove n a =>
    refine .inr ⟨n, a, rfl, ?_⟩
    have hany : s.reconnectQueue[n]?.any (·.transport == t) = true := ht
    rw [hen.2.1] at hany
    simpa using hany
  | scanKeep _ _ | scanErase _ | sleep _ | pop _ _ | connect _ | succeed _ | abort _ =>
    exact absurd ht (by simp [ReconnectOp.step, isErasing, post, updTcp])
  | _ => exact .inl ht

namespace Ok

variable {op : ReconnectOp}

/-- A connection that has not been started is about to be. -/
theorem unstarted_step (h : s.Ok) (hen : op.Enabled s) (ht : t < (op.step s).nextTransport)
    (hun : ((op.step s).transports t).connection.started = false) :
    .register t ∈ (op.step s).runQueue ∨
      ∃ a, (op.step s).handler = .connected a ∧ a.transport = t := by
  rcases unstarted_before hen hun with ⟨hbefore, hop⟩ | ⟨a, rfl, hat⟩
  · by_cases hlt : t < s.nextTransport
    · rcases h.unstarted t hlt hbefore with hmem | ⟨a, ha, hat⟩
      · refine .inl (mem_step hen hmem (by simp) ?_ (by simp))
        rintro u ⟨⟩
        exact hop
      · by_cases hsucceed : op = .succeed a
        · subst hsucceed hat
          exact .inl (mem_append_right _ (mem_singleton_self _))
        · exact .inr ⟨a, connected_step hen ha hsucceed, hat⟩
    · obtain ⟨rfl, rfl⟩ := eq_newTransport hlt ht
      exact .inl (mem_append_right _ (mem_singleton_self _))
  · exact .inr ⟨a, rfl, hat⟩

/-- The looper runs no more tasks once it has stopped the handler. -/
theorem running_step (h : s.Ok) (hen : op.Enabled s) (hlooper : (op.step s).looper ≠ .exiting) :
    (op.step s).running = true := by
  cases op with
  | cleanup => exact absurd rfl hlooper
  | takeError _ _ | errorStopped _ _ | remove _ => exact h.running (by rw [hen.1]; simp)
  | track _ _ =>
    have hrunning := h.running (by rw [hen.1]; simp)
    rw [ReconnectOp.step]
    split <;> exact hrunning
  | connection _ _ _ | retry _ _ =>
    rw [ReconnectOp.step] at hlooper ⊢
    split
    · exact h.running (by rw [if_pos ‹_›] at hlooper; exact hlooper)
    · exact h.running (by rw [if_neg ‹_›] at hlooper; exact hlooper)
  | _ => exact h.running hlooper

/-- A transport that is being erased is deleted, or is about to be. -/
theorem erasing_step (h : s.Ok) (hen : op.Enabled s) (ht : (op.step s).isErasing t = true) :
    0 < ((op.step s).transports t).unregistered ∨ .unregister t ∈ (op.step s).runQueue := by
  rcases isErasing_before hen ht with hbefore | ⟨n, a, rfl, rfl⟩
  · by_cases hop : op = .runUnregister t
    · subst hop
      rw [ReconnectOp.step, updTcp_self]
      exact .inl (Nat.succ_pos _)
    · rcases h.erasing t hbefore with hpos | hmem
      · exact .inl (hpos.trans_le (unregistered_le_step op t))
      · refine .inr (mem_step hen hmem (by simp) (by simp) ?_)
        rintro u ⟨⟩
        exact hop
  · exact .inr (mem_append_right _ (mem_singleton_self _))

/-- A transport is in one place, counting its deletion. -/
theorem load_eq_step (h : s.Ok) (hen : op.Enabled s) (t : ℕ) :
    (op.step s).load t = if t < (op.step s).nextTransport then 1 else 0 := by
  by_cases hop : op = .newTransport
  · subst hop
    show (s.post _).load t = if t < s.nextTransport + 1 then 1 else 0
    rw [load_post, h.load t]
    rcases lt_trichotomy t s.nextTransport with hlt | rfl | hgt
    · simp [Task.transport, hlt, hlt.ne', Nat.lt_succ_of_lt hlt]
    · simp [Task.transport]
    · simp [Task.transport, hgt.ne, not_lt.mpr hgt.le, Nat.not_lt.mpr (Nat.succ_le_of_lt hgt)]
  · rw [h.load_step hen hop t, h.load t]
    by_cases hlt : t < s.nextTransport
    · rw [if_pos hlt, if_pos (hlt.trans_le (nextTransport_le_step op))]
    · rw [if_neg hlt, if_neg fun ht => hop (eq_newTransport hlt ht).1]

theorem step (h : s.Ok) (hen : op.Enabled s) : (op.step s).Ok where
  sound := h.sound_step hen
  fresh := h.fresh_step hen
  old := h.old_step hen
  unstarted := fun _ => h.unstarted_step hen
  running := h.running_step hen
  erasing := fun _ => h.erasing_step hen
  load := h.load_eq_step hen

theorem init : Ok {} where
  sound := fun _ _ => .init
  fresh := fun _ _ => rfl
  old := fun _ _ hk => absurd hk (Nat.not_lt_zero _)
  unstarted := fun _ ht => absurd ht (Nat.not_lt_zero _)
  running := fun _ => rfl
  erasing := fun _ => nofun
  load := fun _ => rfl

theorem of_reach (h : reconnect.Reach s) : s.Ok := by
  refine Machine.Reach.inv (M := reconnect) (P := Ok) ?_ ?_ h
  · rintro _ rfl
    exact init
  · exact fun _ _ _ hok hen => hok.step hen

end Ok

/-! ### Whole runs -/

/-- The attempt that is about to be erased is the only one that is not counted. -/
theorem places_eq (s : Reconnect) (t : ℕ) :
    s.places t = s.placesWith s.attempts t + (s.isErasing t).toNat := by
  have hcount : s.reconnectQueue.countP (·.transport == t) =
      s.attempts.countP (·.transport == t) + (s.isErasing t).toNat := by
    unfold attempts isErasing
    split
    · rename_i n hn
      cases hget : s.reconnectQueue[n]? with
      | none =>
        rw [eraseIdx_of_length_le (List.getElem?_eq_none_iff.mp hget)]
        simp
      | some a => rw [countP_eraseIdx _ hget, Option.any_some]
    · simp
  unfold places placesWith
  omega

end Reconnect

/-- **A transport is in one place until it is deleted, and then in none.** The exception is
an attempt that the handler is about to erase from the queue: the transport has been passed
to the looper, which may even have deleted it. It is never deleted twice. -/
theorem one_place {s : Reconnect} (h : reconnect.Reach s) {t : ℕ} (ht : t < s.nextTransport) :
    (s.transports t).unregistered + s.places t = 1 + (s.isErasing t).toNat ∧
      (s.transports t).unregistered ≤ 1 ∧
      (s.isErasing t = true →
        (s.transports t).unregistered = 1 ∨ .unregister t ∈ s.runQueue) := by
  have hok := Reconnect.Ok.of_reach h
  have hload : (s.transports t).unregistered + s.placesWith s.attempts t = 1 := by
    have hload := hok.load t
    rwa [if_pos ht] at hload
  rw [s.places_eq t]
  refine ⟨by omega, by omega, fun herase => ?_⟩
  rcases hok.erasing t herase with hpos | hmem
  · exact .inl (by omega)
  · exact .inr hmem

/-- A connection breaks, and its transport waits to be reconnected. -/
def breaking : List ReconnectOp :=
  [.newTransport, .runRegister 0, .connection 0 0 (.readFail 0), .takeError 0 0,
    .connection 0 0 (.stopEnter 0), .connection 0 0 (.stopClose 0), .connection 0 0 (.stopMove 0),
    .connection 0 0 (.stopJoinRead 0), .connection 0 0 .writeReturn,
    .connection 0 0 (.stopJoinWrite 0), .connection 0 0 (.stopReport 0), .errorStopped 0 0,
    .track 0 0]

/-- The transport is kicked while it waits. -/
def kickWaiting : List ReconnectOp := breaking ++ [.kick 0, .wake]

theorem one_place_kicked :
    ((reconnect.run {} kickWaiting).transports 0).unregistered +
        (reconnect.run {} kickWaiting).places 0 = 1 := by
  have hinit : reconnect.Reach {} := .init rfl
  have hlegal : reconnect.Legal {} kickWaiting := by decide +kernel
  exact (one_place (hinit.run hlegal) (t := 0) (by decide +kernel)).1

/-- **The handler removes a transport before it erases the attempt.** The transport is in two
places then, and the looper can delete it while it is in one. -/
theorem two_places :
    (reconnect.Legal {} (kickWaiting ++ [.scanRemove 0 ⟨0, 250, kMaxAttempts⟩]) ∧
      (reconnect.run {} (kickWaiting ++ [.scanRemove 0 ⟨0, 250, kMaxAttempts⟩])).places 0 = 2) ∧
    (reconnect.Legal {} (kickWaiting ++ [.scanRemove 0 ⟨0, 250, kMaxAttempts⟩, .runUnregister 0]) ∧
      ((reconnect.run {} (kickWaiting ++
        [.scanRemove 0 ⟨0, 250, kMaxAttempts⟩, .runUnregister 0])).transports 0).unregistered = 1 ∧
      (reconnect.run {} (kickWaiting ++
        [.scanRemove 0 ⟨0, 250, kMaxAttempts⟩, .runUnregister 0])).places 0 = 1) := by
  refine ⟨⟨by decide +kernel, by decide +kernel⟩, by decide +kernel, by decide +kernel,
    by decide +kernel⟩

end AdbBridge
