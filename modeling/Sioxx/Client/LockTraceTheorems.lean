/-
Sioxx.Client.LockTraceTheorems — which locks are held when a listener runs.

Every program of `LockTrace.lean` writes a bracketed trace, with the locks
nested by rank, and accounts for its callbacks: one lemma per function, each
from those of the functions it calls. The sections run no callback, with one
exception: `on_engineio_close` calls `mark_connected(false)` inside its
section of `sockets_mutex_` (`disconnectAll_whole`). What that loop meets
when no other thread interferes is said of the client it starts from
(`engineioClose_unlocked_iff`).
-/
import Sioxx.Client.LockTrace

namespace Sioxx

open Lib

/-- `mark_connected(false)` will call the disconnect listener. -/
def Socket.AnnouncesDisconnect (s : Socket) : Prop :=
  s.connected = true ∧ s.onDisconnect.isSome = true

namespace Op

open Prog

/-- Code inside a section, with locks of rank at least `r`. -/
abbrev Inside (r : Nat) : List (LockAction Mutex UserCallback Socket) → Prop :=
  Inner Mutex.rank r

/-- A whole operation, with what is due when it is seen under
`sockets_mutex_`. -/
abbrev Whole (due : Socket → Prop) : List (LockAction Mutex UserCallback Socket) → Prop :=
  Outer Mutex.rank .sockets due

variable {r : Nat} {due : Socket → Prop}

/-! ## Sections -/

/-- A section of a socket may stand inside any lock that ranks before it. -/
theorem socketSection_inside {α : Type} (hr : r ≤ 4) (nsp : Bytes) (f : Socket → α × Socket) :
    (socketSection nsp f).Emits (Inside r) :=
  .inner_withLock _ hr (.inner_bind (by simp) fun _ => .inner_bind (by simp) fun _ => by simp)

/-- On its own it holds one lock and calls nothing. -/
@[simp] theorem socketSection_whole {α : Type} (nsp : Bytes) (f : Socket → α × Socket) :
    (socketSection nsp f).Emits (Whole due) :=
  (socketSection_inside (Nat.zero_le 4) nsp f).outer

@[simp] theorem socketUpdate_whole (nsp : Bytes) (f : Socket → Socket) :
    (socketUpdate nsp f).Emits (Whole due) :=
  socketSection_whole nsp _

@[simp] theorem socketRead_whole {α : Type} (nsp : Bytes) (f : Socket → α) :
    (socketRead nsp f).Emits (Whole due) :=
  socketSection_whole nsp _

/-- A destructor waits and takes no lock of these. -/
@[simp] theorem releaseEngineio_inside : releaseEngineio.Emits (Inside r) :=
  .inner_bind (by simp) fun _ => by simp

@[simp] theorem releaseEngineio_whole : releaseEngineio.Emits (Whole due) :=
  (releaseEngineio_inside (r := 0)).outer

/-- The scheduler is called inside sections of the socket's mutex. -/
theorem schedulerCall_inside (nsp : Bytes) :
    (schedulerCall nsp).Emits (Inside ((Mutex.socket nsp).rank + 1)) :=
  .inner_withLock _ (Nat.le_refl 5) (by simp)

/-- It takes `engineio_mutex_` and nothing in it. -/
theorem currentEngineio_inside (hr : r ≤ 3) : currentEngineio.Emits (Inside r) :=
  .inner_withLock _ hr (.inner_bind (by simp) fun _ => by simp)

/-- It takes `send_mutex_`, and `engineio_mutex_` inside. The parser may throw
there. -/
theorem sendPacket_inside (hr : r ≤ 2) : sendPacket.Emits (Inside r) := by
  refine .inner_withLock _ hr (.inner_bind (currentEngineio_inside (Nat.le_refl 3)) fun _ => ?_)
  refine .inner_bind (.attempt (by simp)) fun _ => .inner_bind ?_ fun _ => by simp
  exact emits_when (by simp) _ releaseEngineio_inside

/-- The lock of the socket is let go before `send_mutex_` is taken. -/
theorem connectSocket_inside (hr : r ≤ 2) (nsp : Bytes) : (connectSocket nsp).Emits (Inside r) :=
  .inner_bind (socketSection_inside (by omega) nsp _) fun _ => sendPacket_inside hr

/-- It calls the scheduler with the socket's mutex. -/
theorem cancelTimedAcks_inside (hr : r ≤ 4) (nsp : Bytes) :
    (cancelTimedAcks nsp).Emits (Inside r) := by
  refine .inner_withLock _ hr (.inner_bind (by simp) fun scheduler => ?_)
  exact .inner_bind (emits_when (by simp) _ (schedulerCall_inside nsp)) fun _ => by simp

theorem resumeTimedAcks_inside (hr : r ≤ 4) (nsp : Bytes) :
    (resumeTimedAcks nsp).Emits (Inside r) :=
  socketSection_inside hr nsp _

/-- The mutex is not held during the wait. -/
@[simp] theorem waitOn_whole (m : Mutex) (rounds : Nat) : (waitOn m rounds).Emits (Whole due) := by
  induction rounds with
  | zero => exact emits_pure outer_sequential ()
  | succ rounds ih =>
    refine .outer_bind (by simp) fun _ => emits_when outer_sequential _ ?_
    exact .outer_bind (by simp) fun _ => .outer_bind (.outer_withLock _ (by simp)) fun _ => ih

@[simp] theorem waitForTimedAcks_whole (rounds : Nat) (nsp : Bytes) :
    (waitForTimedAcks rounds nsp).Emits (Whole due) :=
  .outer_bind (socketUpdate_whole nsp _) fun _ => waitOn_whole _ rounds

@[simp] theorem sendPacket_whole : sendPacket.Emits (Whole due) :=
  (sendPacket_inside (Nat.zero_le 2)).outer

@[simp] theorem currentEngineio_whole : currentEngineio.Emits (Whole due) :=
  (currentEngineio_inside (Nat.zero_le 3)).outer

@[simp] theorem cancelTimedAcks_whole (nsp : Bytes) : (cancelTimedAcks nsp).Emits (Whole due) :=
  (cancelTimedAcks_inside (Nat.zero_le 4) nsp).outer

/-- A listener runs with no lock. -/
@[simp] theorem callIf_whole (listener : Option Nat) (call : Nat → UserCallback) :
    (callIf listener call).Emits (Whole due) := by
  unfold callIf
  split <;> simp

/-- And so does one of the two kinds of event listeners. -/
@[simp] theorem callEither_whole (plain ack : Option Nat) (call : Nat → UserCallback) :
    (callEither plain ack call).Emits (Whole due) := by
  unfold callEither
  split <;> simp

/-! ## Emissions -/

@[simp] theorem connectSocket_whole (nsp : Bytes) : (connectSocket nsp).Emits (Whole due) :=
  (connectSocket_inside (Nat.zero_le 2) nsp).outer

@[simp] theorem disconnectSocket_whole (nsp : Bytes) : (disconnectSocket nsp).Emits (Whole due) :=
  .outer_bind (by simp) fun _ => by simp

/-- The packet is sent after the section that decides so. -/
@[simp] theorem sendOrBuffer_whole (nsp : Bytes) (out : Outgoing) :
    (sendOrBuffer nsp out).Emits (Whole due) :=
  .outer_bind (by simp) fun _ => by simp

@[simp] theorem emitAck_whole (nsp event : Bytes) (data : Json) (callback : Nat) :
    (emitAck nsp event data callback).Emits (Whole due) :=
  .outer_bind (by simp) fun _ => by simp

/-- The section of a timed `emit` calls the scheduler twice. -/
@[simp] theorem registerTimed_whole (nsp event : Bytes) (data : Json) (deadline : Time)
    (callback : Nat) : (registerTimed nsp event data deadline callback).Emits (Whole due) := by
  refine .outer_withLock _ (.inner_bind (by simp) fun c => ?_)
  split
  · simp
  · refine .inner_bind (schedulerCall_inside nsp) fun _ => .inner_bind (by simp) fun _ => ?_
    refine .inner_bind (schedulerCall_inside nsp) fun _ => .inner_bind (by simp) fun now => ?_
    split_ifs <;> simp

/-- A timed `emit` runs no callback, whatever it throws. -/
@[simp] theorem emitTimed_whole (nsp event : Bytes) (data : Json) (timeout : Int)
    (callback : Option Nat) : (emitTimed nsp event data timeout callback).Emits (Whole due) := by
  refine .outer_bind (by simp) fun _ => .outer_bind (by simp) fun now => ?_
  exact .outer_bind (by simp) fun send => by simp

/-! ## Acknowledgements and events -/

/-- The callback runs before the section that counts it as done, also if it
throws. -/
@[simp] theorem invokeTimedAck_whole (nsp : Bytes) (callback : Nat) :
    (invokeTimedAck nsp callback).Emits (Whole due) :=
  .outer_bind (by simp) fun _ => .outer_bind (by simp) fun _ => by simp

/-- What has been claimed is called outside the section. -/
@[simp] theorem expireAck_whole (nsp : Bytes) (id : Int) :
    (expireAck nsp id).Emits (Whole due) := by
  refine .outer_bind (by simp) fun claimed => ?_
  split <;> simp

/-- Each turn is a section, and then a packet or an expired callback. -/
@[simp] theorem flushSendBuffer_whole (rounds : Nat) (nsp : Bytes) :
    (flushSendBuffer rounds nsp).Emits (Whole due) := by
  induction rounds with
  | zero => exact emits_pure outer_sequential ()
  | succ rounds ih =>
    refine .outer_bind (.outer_withLock _ (.inner_bind (by simp) fun c => ?_)) fun turn => ?_
    · refine .inner_bind (emits_when (by simp) _ (schedulerCall_inside nsp)) fun _ => ?_
      exact .inner_bind (by simp) fun now => .inner_bind (by simp) fun _ => by simp
    · split
      · simp
      · exact .outer_bind (by simp) fun _ => ih
      · exact .outer_bind (by simp) fun _ => ih

/-- The listeners are looked up in a section and called after it. -/
@[simp] theorem dispatchEvent_whole (nsp event : Bytes) :
    (dispatchEvent nsp event).Emits (Whole due) :=
  .outer_bind (by simp) fun _ => .outer_bind (by simp) fun _ => by simp

/-- The callback is taken out in a section and called after it. -/
@[simp] theorem dispatchAck_whole (nsp : Bytes) (id : Int) :
    (dispatchAck nsp id).Emits (Whole due) := by
  refine .outer_bind (.outer_withLock _ (.inner_bind (by simp) fun c => ?_)) fun found => ?_
  · refine .inner_bind (emits_when (by simp) _ (schedulerCall_inside nsp)) fun _ => ?_
    exact .inner_bind (by simp) fun now => .inner_bind (by simp) fun _ => by simp
  · split <;> simp

/-- The worker leaves the scheduler before it claims what is due. -/
@[simp] theorem deadlineWorker_whole (nsp : Bytes) : (deadlineWorker nsp).Emits (Whole due) := by
  refine .outer_bind (.outer_withLock _ (.inner_bind (by simp) fun c => ?_)) fun popped => ?_
  · refine .inner_bind (by simp) fun now => ?_
    split <;> simp
  · split <;> simp

/-! ## `mark_connected` -/

/-- The section of `mark_connected` returns the socket it has noted. -/
theorem markSection_trace (nsp : Bytes) (connected : Bool) (w : World ClientImpl)
    (l : Log ClientImpl Mutex UserCallback Socket) :
    ∃ s flush l', markSection nsp connected w l = (some (s, flush), l') ∧
      l'.trace = l.trace ++ .lock (.socket nsp) ::
        ((if connected then [] else [.saw s]) ++ [.unlock (.socket nsp)]) := by
  cases connected with
  | true => exact ⟨_, _, _, rfl, by simp [Log.act]⟩
  | false => exact ⟨_, _, _, rfl, by simp [Log.act]⟩

/-- With `false` the section notes the socket it found. -/
@[simp] theorem markSection_whole (nsp : Bytes) (connected : Bool) :
    (markSection nsp connected).Emits (Whole due) := by
  intro w l
  obtain ⟨s, flush, l', heq, htrace⟩ := markSection_trace nsp connected w l
  refine ⟨_, by rw [heq]; exact htrace, ?_⟩
  have hb : Bracketed Mutex.rank 4 (.lock (.socket nsp) ::
      ((if connected then [] else [.saw s]) ++
        [.unlock (.socket nsp)] : List (LockAction Mutex UserCallback Socket))) := by
    refine .guarded _ (Nat.le_refl 4) ?_ .nil
    split
    · exact .nil
    · exact .saw s .nil
  -- what is noted here is not noted under `sockets_mutex_`
  exact ⟨hb.mono (Nat.zero_le 4),
    accounted_of_silent (by cases connected <;> simp) (not_sawUnder hb (by decide))⟩

/-- The listener runs after the section, and accounts for what it noted. -/
@[simp] theorem markConnected_whole (rounds : Nat) (nsp : Bytes) (connected : Bool) :
    (markConnected rounds nsp connected).Emits (Whole due) := by
  refine .outer_bind (by simp) fun (s, shouldFlush) => ?_
  dsimp only
  split_ifs
  · exact .outer_bind (by simp) fun _ => by simp
  · simp
  · simp

/-- What `mark_connected(false)` writes inside another section. -/
def Told (t : List (LockAction Mutex UserCallback Socket)) : Prop :=
  Bracketed Mutex.rank 1 t ∧ Announced Socket.AnnouncesDisconnect t

/-- One namespace after the other. -/
theorem told_sequential : Sequential Told where
  nil := ⟨.nil, .inr ⟨by simp, by simp⟩⟩
  append ht hu := ⟨ht.1.append hu.1, ht.2.append hu.2⟩

/-- It runs the disconnect listener exactly if it finds the socket connected
and the listener set. -/
theorem markConnected_told (rounds : Nat) (nsp : Bytes) :
    (markConnected rounds nsp false).Emits Told := by
  intro w l
  obtain ⟨s, flush, l', heq, htrace⟩ := markSection_trace nsp false w l
  have hprog : markConnected rounds nsp false w l
      = (if s.connected then callIf s.onDisconnect (.disconnected nsp) else pure ()) w l' := by
    rw [markConnected, bind_of_some heq]
    simp
  have hsection : ∀ t, Bracketed Mutex.rank 1 t →
      Bracketed Mutex.rank 1 (.lock (.socket nsp) :: ([.saw s] ++ .unlock (.socket nsp) :: t) :
        List (LockAction Mutex UserCallback Socket)) :=
    fun t ht => .guarded _ (Nat.le_add_left 1 3) (.saw s .nil) ht
  rw [hprog]
  by_cases hconnected : s.connected = true
  · cases hlistener : s.onDisconnect with
    | some listener =>
      refine ⟨.lock (.socket nsp) :: ([.saw s] ++ .unlock (.socket nsp) ::
        [.callback (.disconnected nsp listener)]), ?_, hsection _ (.callback _ .nil), .inl ?_⟩
      · simp [hconnected, callIf, Prog.callback, Log.act, htrace]
      · exact ⟨⟨s, by simp, hconnected, by simp [hlistener]⟩, .disconnected nsp listener, by simp⟩
    | none =>
      refine ⟨.lock (.socket nsp) :: ([.saw s] ++ .unlock (.socket nsp) :: []), ?_,
        hsection _ .nil, .inr ?_⟩
      · simp [hconnected, callIf, htrace, pure]
      · simp [Socket.AnnouncesDisconnect, hlistener]
  · refine ⟨.lock (.socket nsp) :: ([.saw s] ++ .unlock (.socket nsp) :: []), ?_,
      hsection _ .nil, .inr ?_⟩
    · simp [hconnected, htrace, pure]
    · simp [Socket.AnnouncesDisconnect, hconnected]

/-! ## The client -/

@[simp] theorem currentHandler_whole (which : ClientHandlers → Option Nat) :
    (currentHandler which).Emits (Whole due) :=
  .outer_withLock _ (.inner_bind (by simp) fun _ => by simp)

@[simp] theorem setHandler_whole (f : ClientHandlers → ClientHandlers) :
    (setHandler f).Emits (Whole due) :=
  .outer_withLock _ (by simp)

/-- A handler is called without the mutex it is kept under. -/
@[simp] theorem notify_whole (which : ClientHandlers → Option Nat) (call : Nat → UserCallback) :
    (notify which call).Emits (Whole due) :=
  .outer_bind (by simp) fun _ => by simp

/-- The replaced client goes after the section. -/
@[simp] theorem ensureEngineio_whole : ensureEngineio.Emits (Whole due) := by
  refine .outer_bind (.outer_withLock _ (.inner_bind (by simp) fun c => ?_)) fun installed => ?_
  · split_ifs
    · simp
    · exact .inner_bind (by simp) fun _ => by simp
  · exact .outer_bind (by simp) fun _ => by simp

/-- `open` may throw, and takes no lock here. -/
@[simp] theorem reopen_whole : reopen.Emits (Whole due) := .outer_bind (by simp) fun _ => by simp

/-- The join is outside the section. -/
@[simp] theorem stopReconnectThread_whole : stopReconnectThread.Emits (Whole due) :=
  .outer_bind (.outer_withLock _ (by simp)) fun _ => by simp

/-- The sockets are resumed inside one section of `sockets_mutex_`. -/
@[simp] theorem connect_whole : connect.Emits (Whole due) := by
  refine .outer_bind (by simp) fun c => .outer_bind (by simp) fun _ => ?_
  refine .outer_bind (.outer_withLock _ ?_) fun _ => .outer_bind (by simp) fun _ => by simp
  refine .inner_bind (by simp) fun _ => .inner_bind (by simp) fun c' => ?_
  exact emits_forEach (by simp) (resumeTimedAcks_inside (by decide)) _

@[simp] theorem opened_whole : opened.Emits (Whole due) := .outer_bind (by simp) fun _ => by simp

/-- Every socket sends its CONNECT inside `sockets_mutex_`. -/
@[simp] theorem onEngineioOpen_whole : onEngineioOpen.Emits (Whole due) := by
  refine .outer_bind (.outer_withLock _ (.inner_bind (by simp) fun c => ?_)) fun _ => by simp
  exact emits_forEach (by simp) (connectSocket_inside (by decide)) _

/-- The handlers come before the section with the join. -/
@[simp] theorem scheduleReconnect_whole : scheduleReconnect.Emits (Whole due) := by
  refine .outer_bind (by simp) fun c => ?_
  split_ifs
  · simp
  · refine .outer_bind (by simp) fun _ => .outer_bind (by simp) fun _ => ?_
    refine .outer_withLock _ (.inner_bind (by simp) fun c' => emits_when (by simp) _ ?_)
    exact .inner_bind (by simp) fun _ => .inner_bind (by simp) fun _ => by simp

/-- The one section with callbacks in it. -/
@[simp] theorem disconnectAll_whole (rounds : Nat) :
    (disconnectAll rounds).Emits (Whole Socket.AnnouncesDisconnect) := by
  have hloop : (get >>= fun c : ClientImpl =>
      forEach (fun nsp => markConnected rounds nsp false) c.sockets.keys).Emits Told :=
    .bind told_sequential (by simp [told_sequential])
      fun c => emits_forEach told_sequential (markConnected_told rounds) _
  refine Emits.withLock Mutex.sockets hloop ?_
  intro t ht
  exact ⟨.guarded Mutex.sockets (Nat.le_refl 0) ht.1 .nil, accounted_guarded ht.1 ht.2⟩

/-- What `on_engineio_close` does after its section. -/
theorem closeNotice_whole :
    (do
      notify (·.onClose) .closed
      let c ← get
      Prog.when (!c.intentionalClose && decide (0 < c.reconnectAttempts)) scheduleReconnect :
        Op Unit).Emits (Whole due) :=
  .outer_bind (by simp) fun _ => .outer_bind (by simp) fun c => by simp

/-- Only its loop calls a listener inside a section. -/
@[simp] theorem onEngineioClose_whole (rounds : Nat) :
    (onEngineioClose rounds).Emits (Whole Socket.AnnouncesDisconnect) :=
  .outer_bind (disconnectAll_whole rounds) fun _ => closeNotice_whole

/-- The worker announces its attempt outside of every section. -/
@[simp] theorem reconnectWorker_whole (rounds : Nat) :
    (reconnectWorker rounds).Emits (Whole due) := by
  refine .outer_bind (.outer_withLock _ (by simp)) fun _ => .outer_bind (by simp) fun _ => ?_
  refine .outer_bind (by simp) fun stopped => .outer_bind (by simp) fun c => ?_
  refine emits_when outer_sequential _ (.outer_bind (.attempt ?_) fun _ => by simp)
  refine .outer_bind (by simp) fun installed => emits_when outer_sequential _ ?_
  exact .outer_bind (by simp) fun _ => .outer_bind (by simp) fun _ => by simp

/-- The test for the current client is a section before the handler. -/
@[simp] theorem ifCurrent_whole {p : Op Unit} (hp : p.Emits (Whole due)) :
    (ifCurrent p).Emits (Whole due) := by
  refine .outer_bind (.outer_withLock _ (by simp)) fun _ => ?_
  refine .outer_bind (.attempt (emits_when outer_sequential _ hp)) fun _ => ?_
  exact .outer_bind (by simp) fun _ => by simp

/-- The socket of the packet is looked up in a section and called after it. -/
theorem handlePacket_whole (rounds : Nat) (packet : Packet) :
    (handlePacket rounds packet).Emits (Whole due) := by
  refine .outer_bind (.outer_withLock _ (.inner_bind (by simp) fun _ => by simp)) fun present => ?_
  refine emits_when outer_sequential _ ?_
  split
  · simp
  · simp
  · simp
  · split <;> simp
  · split <;> simp
  · simp
  · simp

@[simp] theorem onEngineioFrame_whole (rounds : Nat) (decoded : Option Packet) :
    (onEngineioFrame rounds decoded).Emits (Whole due) := by
  refine .outer_bind (by simp) fun _ => ?_
  split
  · simp
  · exact handlePacket_whole rounds _

/-- The error is reported before the client is replaced. -/
@[simp] theorem activatePollingFallback_whole : activatePollingFallback.Emits (Whole due) := by
  refine .outer_bind (by simp) fun c => ?_
  split_ifs
  · simp
  · exact .outer_bind (by simp) fun _ => .outer_bind (by simp) fun _ => by simp

@[simp] theorem handleEngineioError_whole : handleEngineioError.Emits (Whole due) := by
  refine ifCurrent_whole (.outer_bind (by simp) fun c => .outer_bind (by simp) fun isOpen => ?_)
  exact .outer_bind (by simp) fun _ => by simp

/-- A new socket may send its CONNECT inside `sockets_mutex_`; nothing is
called. -/
theorem socket_whole (nsp : Bytes) (hasAuth : Bool) : (socket nsp hasAuth).Emits (Whole due) := by
  unfold socket
  generalize (if nsp.isEmpty then ascii "/" else nsp) = norm
  refine .outer_withLock _ (.inner_bind (by simp) fun c => ?_)
  split_ifs
  · exact emits_when (by simp) _ (socketSection_inside (by decide) _ _)
  · refine .inner_bind (emits_when (by simp) _ (cancelTimedAcks_inside (by decide) _)) fun _ => ?_
    refine .inner_bind (by simp) fun _ => ?_
    refine .inner_bind (currentEngineio_inside (by decide)) fun _ => ?_
    refine .inner_bind (.attempt (emits_when (by simp) _ (connectSocket_inside (by decide) _)))
      fun _ => .inner_bind (emits_when (by simp) _ releaseEngineio_inside) fun _ => by simp

@[simp] theorem socketsSnapshot_whole : socketsSnapshot.Emits (Whole due) :=
  .outer_withLock _ (.inner_bind (by simp) fun _ => by simp)

/-- The sockets of a snapshot, one after the other and with no lock between. -/
@[simp] theorem closeSockets_whole (nsps : List Bytes) : (closeSockets nsps).Emits (Whole due) := by
  induction nsps with
  | nil => exact emits_pure outer_sequential false
  | cons nsp rest ih =>
    refine .outer_bind (by simp) fun _ => .outer_bind (.attempt ?_) fun threw => ?_
    · exact .outer_bind (socketRead_whole nsp _) fun _ => by simp
    · exact .outer_bind ih fun _ => by simp

/-- The close handler may come back on this thread. -/
@[simp] theorem closeEngineio_whole (rounds : Nat) :
    (closeEngineio rounds).Emits (Whole Socket.AnnouncesDisconnect) := by
  refine .outer_bind (by simp) fun engineio => emits_when outer_sequential _ ?_
  refine .outer_bind (.attempt (.outer_bind (by simp) fun reports => ?_)) fun _ => ?_
  · refine .outer_bind (emits_when outer_sequential _ (ifCurrent_whole (by simp))) fun _ => ?_
    exact .outer_bind (by simp) fun _ => .outer_bind (by simp) fun _ => by simp
  · exact .outer_bind (by simp) fun _ => by simp

@[simp] theorem close_whole (rounds : Nat) :
    (close rounds).Emits (Whole Socket.AnnouncesDisconnect) := by
  refine .outer_bind (by simp) fun _ => .outer_bind (by simp) fun nsps => ?_
  refine .outer_bind (by simp) fun threw => .outer_bind (by simp) fun threw' => by simp

/-- Four steps, the first three of which may throw. -/
theorem syncClose_whole (rounds : Nat) :
    (syncClose rounds).Emits (Whole Socket.AnnouncesDisconnect) := by
  refine .outer_bind (by simp) fun threw => .outer_bind (by simp) fun threw' => ?_
  refine .outer_bind (by simp) fun threw'' => .outer_bind (by simp) fun nsps => ?_
  exact .outer_bind (emits_forEach outer_sequential (waitForTimedAcks_whole rounds) nsps)
    fun _ => by simp

end Op

/-! ## All operations -/

namespace Operation

open Prog Op

/-- Can the operation get to `on_engineio_close`? -/
def reportsClose : Operation → Bool
  | .engineioClose => true
  | .close => true
  | .syncClose => true
  | _ => false

/-- The operations without a close notification call nothing inside a
section. -/
theorem prog_whole_of_not_reportsClose {due : Socket → Prop} (op : Operation) (rounds : Nat)
    (h : op.reportsClose = false) : (op.prog rounds).Emits (Whole due) := by
  cases op with
  | engineioClose => cases h
  | close => cases h
  | syncClose => cases h
  | connected nsp => exact .outer_bind (socketRead_whole nsp _) fun _ => by simp
  | opened => exact .outer_bind opened_whole fun _ => by simp
  | socket nsp hasAuth => exact socket_whole nsp hasAuth
  | engineioOpen => exact ifCurrent_whole onEngineioOpen_whole
  | engineioFrame decoded => exact ifCurrent_whole (onEngineioFrame_whole rounds decoded)
  | on nsp event listener => exact socketUpdate_whole nsp _
  | onAck nsp event listener => exact socketUpdate_whole nsp _
  | onAny nsp listener => exact socketUpdate_whole nsp _
  | onAnyAck nsp listener => exact socketUpdate_whole nsp _
  | off nsp event => exact socketUpdate_whole nsp _
  | offAll nsp => exact socketUpdate_whole nsp _
  | onConnect nsp listener => exact socketUpdate_whole nsp _
  | onDisconnect nsp listener => exact socketUpdate_whole nsp _
  | auth nsp => exact socketUpdate_whole nsp _
  | emit nsp event data => exact sendOrBuffer_whole nsp _
  | sendAck => exact sendPacket_whole
  | _ => simp [prog]

/-- What a `mark_connected(false)` under `sockets_mutex_` finds when it will
call a listener there. -/
def Announces (op : Operation) (s : Socket) : Prop :=
  op.reportsClose = true ∧ s.AnnouncesDisconnect

/-- Every operation accounts for the disconnects it announces. -/
theorem prog_whole (op : Operation) (rounds : Nat) :
    (op.prog rounds).Emits (Whole op.Announces) := by
  cases h : op.reportsClose with
  | false => exact op.prog_whole_of_not_reportsClose rounds h
  | true =>
    have hdue : op.Announces = Socket.AnnouncesDisconnect := by
      funext s
      simp [Announces, h]
    rw [hdue]
    cases op with
    | engineioClose => exact ifCurrent_whole (onEngineioClose_whole rounds)
    | close => exact close_whole rounds
    | syncClose => exact syncClose_whole rounds
    | _ => cases h

/-- And so does its trace. -/
theorem trace_whole (op : Operation) (rounds : Nat) (w : World ClientImpl) (c : ClientImpl) :
    Whole op.Announces (op.trace rounds w c) := by
  obtain ⟨t, htrace, ht⟩ := op.prog_whole rounds w { state := c }
  rw [trace, htrace]
  simpa using ht

end Operation

/-- Calls that listeners make begin and end without a lock. -/
theorem listenerCalls_bracketed {t : List (LockAction Mutex UserCallback Socket)}
    (h : ListenerCalls t) : Bracketed Mutex.rank 0 t := by
  induction h with
  | none => exact .nil
  | close rounds w c _ ih => exact (Operation.trace_whole _ rounds w c).1.append ih
  | socket nsp hasAuth w c _ ih => exact (Operation.trace_whole _ 0 w c).1.append ih

/-- **Listeners and locks.** In every operation, whatever listeners are set
and whatever the other threads do, the listeners run without a lock, and
one that calls `close()` or `socket()` never takes a lock its thread holds,
exactly if the operation is not one that reports the closing, or no
section of `mark_connected(false)` inside a section of `sockets_mutex_`
finds its socket connected and with a disconnect listener. -/
theorem listeners_unlocked_iff (op : Operation) (rounds : Nat) (w : World ClientImpl)
    (c : ClientImpl) :
    (CallbacksFree (op.trace rounds w c) ↔ (op.reportsClose = true →
      ∀ s, SawUnder .sockets s (op.trace rounds w c) → ¬ s.AnnouncesDisconnect)) ∧
    ((∀ t', Inlined ListenerCalls (op.trace rounds w c) t' → NoRelock t') ↔
      (op.reportsClose = true →
        ∀ s, SawUnder .sockets s (op.trace rounds w c) → ¬ s.AnnouncesDisconnect)) := by
  obtain ⟨hbracketed, haccounted⟩ := op.trace_whole rounds w c
  have hcall := ListenerCalls.socket [] false {} {} .none
  have hdue : (∀ s, SawUnder .sockets s (op.trace rounds w c) → ¬ op.Announces s) ↔
      (op.reportsClose = true →
        ∀ s, SawUnder .sockets s (op.trace rounds w c) → ¬ s.AnnouncesDisconnect) :=
    ⟨fun h hreports s hs hannounces => h s hs ⟨hreports, hannounces⟩,
      fun h s hs hannounces => h hannounces.1 s hs hannounces.2⟩
  rw [← hdue]
  exact ⟨haccounted.callbacksFree_iff,
    haccounted.noRelock_iff hbracketed (fun _ => listenerCalls_bracketed) .none hcall⟩

/-- A client with one connected namespace and a disconnect listener: when
the connection closes, the listener runs under `sockets_mutex_`, and one
that calls `close()` or `socket()` takes that lock a second time. -/
theorem disconnectListener_locked :
    let c : ClientImpl :=
      { sockets := AList.singleton (ascii "/") { connected := true, onDisconnect := some 0 } }
    let t := Operation.engineioClose.trace 0 { choose := fun _ => true } c
    ([.sockets], .callback (.disconnected (ascii "/") 0)) ∈ annotate [] t ∧ ¬ CallbacksFree t ∧
      ∃ t', Inlined ListenerCalls t t' ∧ ¬ NoRelock t' := by
  intro c t
  have hmem : ([.sockets], .callback (.disconnected (ascii "/") 0)) ∈ annotate [] t :=
    List.mem_of_getElem? (i := 6) rfl
  have hcall := ListenerCalls.socket [] false {} {} .none
  obtain ⟨t', h', hinlined, hheld, hlock⟩ :=
    relock_inlined .none hcall [] ⟨_, _, List.mem_singleton_self _, hmem⟩
  refine ⟨hmem, fun hfree => ?_, t', hinlined, fun hno => hno h' _ hlock hheld⟩
  exact absurd (hfree _ _ hmem) (by simp)

/-! ## Closing undisturbed

When no one else changes the sockets meanwhile, the loop of
`on_engineio_close` finds each of them as it was at the start. -/

/-- The other sockets stay. -/
theorem ClientImpl.socketAt_setSocket_of_ne {nsp nsp' : Bytes} (hne : nsp' ≠ nsp)
    (c : ClientImpl) (s : Socket) : (c.setSocket nsp s).socketAt nsp' = c.socketAt nsp' := by
  have hlookup : ∀ entries : List (Sigma fun _ : Bytes => Socket),
      (entries.kreplace nsp s).dlookup nsp' = entries.dlookup nsp' := by
    intro entries
    induction entries with
    | nil => rfl
    | cons entry entries ih =>
      obtain ⟨key, value⟩ := entry
      by_cases hkey : nsp = key
      · subst hkey
        have hreplace : List.kreplace nsp s (⟨nsp, value⟩ :: entries) = ⟨nsp, s⟩ :: entries :=
          List.lookmap_cons_some _ _ (by simp)
        rw [hreplace, List.dlookup_cons_ne _ ⟨_, _⟩ hne, List.dlookup_cons_ne _ ⟨_, _⟩ hne]
      · rw [List.kreplace, List.lookmap_cons_none _ _ (by simp [hkey])]
        by_cases hkey' : nsp' = key
        · subst hkey'
          rw [List.dlookup_cons_eq, List.dlookup_cons_eq]
        · rw [List.dlookup_cons_ne _ ⟨_, _⟩ hkey', List.dlookup_cons_ne _ ⟨_, _⟩ hkey']
          exact ih
  simp [ClientImpl.socketAt, ClientImpl.setSocket, AList.lookup, AList.replace, hlookup]

namespace Op

open Prog

/-- What the section of `mark_connected(false)` leaves behind. -/
def marked (nsp : Bytes) (l : Log ClientImpl Mutex UserCallback Socket) :
    Log ClientImpl Mutex UserCallback Socket where
  state := l.state.setSocket nsp ((l.state.socketAt nsp).markConnected false).2
  trace := l.trace ++ [.lock (.socket nsp), .saw (l.state.socketAt nsp), .unlock (.socket nsp)]

section Quiet

variable {w : World ClientImpl} (hw : w.Quiet) (rounds : Nat)
include hw

/-- Undisturbed, `mark_connected(false)` calls the listener of the socket as
it stands, and leaves the others alone. -/
theorem markConnected_quiet (nsp : Bytes) (l : Log ClientImpl Mutex UserCallback Socket) :
    markConnected rounds nsp false w l =
      (if (l.state.socketAt nsp).connected then
        callIf (l.state.socketAt nsp).onDisconnect (.disconnected nsp) else pure ())
      w (marked nsp l) := by
  have hsection : markSection nsp false w l =
      (some (l.state.socketAt nsp, ((l.state.socketAt nsp).markConnected false).1),
        marked nsp l) := by
    simp only [markSection, Prog.withLock, Log.act_of_quiet hw]
    show (some _, Log.mk (l.state.setSocket _ _) (((l.trace ++ [_]) ++ [_]) ++ [_])) = _
    simp [marked]
  rw [markConnected, bind_of_some hsection]
  simp

/-- The loop calls a listener exactly if a socket is due at its start. -/
theorem disconnectLoop_quiet {nsps : List Bytes} (hnodup : nsps.Nodup)
    (l : Log ClientImpl Mutex UserCallback Socket) :
    (∃ k, .callback k ∈ (forEach (fun nsp => markConnected rounds nsp false) nsps w l).2.trace) ↔
      (∃ k, .callback k ∈ l.trace) ∨
        ∃ nsp ∈ nsps, (l.state.socketAt nsp).AnnouncesDisconnect := by
  induction nsps generalizing l with
  | nil => simp [forEach, pure]
  | cons nsp nsps ih =>
    obtain ⟨hnew, hnodup⟩ := List.nodup_cons.mp hnodup
    have hfirst := markConnected_quiet hw rounds nsp l
    by_cases hdue : (l.state.socketAt nsp).AnnouncesDisconnect
    · -- the listener is called; if it throws, the loop ends there
      obtain ⟨listener, hlistener⟩ := Option.isSome_iff_exists.mp hdue.2
      obtain ⟨u, htrace, -⟩ := bind_trace (p := markConnected rounds nsp false) told_sequential
        (fun _ => emits_forEach told_sequential (markConnected_told rounds) nsps) w l
      refine iff_of_true ⟨.disconnected nsp listener, ?_⟩ (.inr ⟨nsp, by simp, hdue⟩)
      rw [forEach, htrace, hfirst, hdue.1, hlistener]
      simp [callIf, Prog.callback, Log.act]
    · have hmark : markConnected rounds nsp false w l = (some (), marked nsp l) := by
        rw [hfirst]
        split
        · rename_i hconnected
          have hlistener : (l.state.socketAt nsp).onDisconnect = none := by
            simpa [Socket.AnnouncesDisconnect, hconnected] using hdue
          rw [hlistener]
          rfl
        · rfl
      have hothers : ∀ nsp' ∈ nsps,
          (marked nsp l).state.socketAt nsp' = l.state.socketAt nsp' := by
        intro nsp' hmem
        have hne : nsp' ≠ nsp := by
          rintro rfl
          exact hnew hmem
        exact ClientImpl.socketAt_setSocket_of_ne hne _ _
      have htrace : ∀ k, .callback k ∈ (marked nsp l).trace ↔ .callback k ∈ l.trace := by
        intro k
        simp [marked]
      rw [forEach, bind_of_some hmark, ih hnodup]
      simp only [htrace, List.mem_cons, exists_eq_or_imp, hdue, false_or]
      exact or_congr_right (exists_congr fun nsp' =>
        and_congr_right fun hmem => by rw [hothers nsp' hmem])

/-- The section of `on_engineio_close`, when no callback has run before. -/
theorem disconnectAll_quiet {l : Log ClientImpl Mutex UserCallback Socket}
    (hl : ∀ k, .callback k ∉ l.trace) :
    ∃ t, (disconnectAll rounds w l).2.trace
        = l.trace ++ .lock .sockets :: (t ++ [.unlock .sockets]) ∧
      Bracketed Mutex.rank 1 t ∧
      ((∃ k, .callback k ∈ t) ↔
        ∃ nsp ∈ l.state.sockets, (l.state.socketAt nsp).AnnouncesDisconnect) := by
  have hrun : disconnectAll rounds w l =
      (let (result, l') := forEach (fun nsp => markConnected rounds nsp false)
        l.state.sockets.keys w { state := l.state, trace := l.trace ++ [.lock .sockets] }
      (result, { state := l'.state, trace := l'.trace ++ [.unlock .sockets] })) := by
    simp only [disconnectAll, Prog.withLock, Log.act_of_quiet hw]
    rfl
  have hloop := disconnectLoop_quiet hw rounds l.state.sockets.keys_nodup
    { state := l.state, trace := l.trace ++ [.lock .sockets] }
  obtain ⟨t, htrace, hbracketed, -⟩ :=
    emits_forEach told_sequential (markConnected_told rounds) l.state.sockets.keys w
      { state := l.state, trace := l.trace ++ [.lock .sockets] }
  rw [htrace] at hloop
  refine ⟨t, by simp [hrun, htrace], hbracketed, ?_⟩
  simpa [hl, AList.mem_keys] using hloop

end Quiet

end Op

/-- **An undisturbed close.** The listeners of a notification that the
connection closed run without a lock exactly if it is stale or no socket is
connected with a disconnect listener. -/
theorem engineioClose_unlocked_iff {w : World ClientImpl} (hw : w.Quiet) (rounds : Nat)
    (c : ClientImpl) :
    CallbacksFree (Operation.engineioClose.trace rounds w c) ↔
      (w.choose 1 = true → ∀ nsp ∈ c.sockets, ¬ (c.socketAt nsp).AnnouncesDisconnect) := by
  let asked : Log ClientImpl Mutex UserCallback Socket :=
    { state := c, trace := [.lock .engineio, .unlock .engineio] }
  have hcurrent : Op.isCurrentEngineio w { state := c } = (some (w.choose 1), asked) := by
    simp only [Op.isCurrentEngineio, Prog.withLock, Prog.Log.act_of_quiet hw]
    rfl
  -- what comes after the notification calls nothing
  have hrest : ∃ v, Operation.engineioClose.trace rounds w c
      = (Prog.when (w.choose 1) (Op.onEngineioClose rounds) w asked).2.trace ++ v ∧
        CallbacksFree v := by
    obtain ⟨v, htrace, -, haccounted⟩ := Prog.bind_trace
      (p := Prog.attempt (Prog.when (w.choose 1) (Op.onEngineioClose rounds)))
      (f := fun threw => do
        Op.releaseEngineio
        Prog.throwIf threw) Prog.outer_sequential
      (fun _ => Prog.Emits.outer_bind (@Op.releaseEngineio_whole fun _ => False)
        fun _ => by simp) w asked
    refine ⟨v, ?_, haccounted.callbacksFree_iff.mpr fun _ _ => id⟩
    show (Op.ifCurrent (Op.onEngineioClose rounds) w { state := c }).2.trace = _
    rw [Op.ifCurrent, Prog.bind_of_some hcurrent]
    exact htrace
  have hbefore : Bracketed Mutex.rank 0 asked.trace :=
    .guarded (t := []) Mutex.engineio (Nat.zero_le 3) .nil .nil
  have hnotice : Bracketed Mutex.rank 0
      (Prog.when (w.choose 1) (Op.onEngineioClose rounds) w asked).2.trace := by
    obtain ⟨t, htrace, ht, -⟩ := Prog.emits_when Prog.outer_sequential (w.choose 1)
      (Op.onEngineioClose_whole rounds) w asked
    rw [htrace]
    exact hbefore.append ht
  obtain ⟨v, hrun, hv⟩ := hrest
  rw [hrun, hnotice.callbacksFree_append, and_iff_left hv]
  cases hchoose : w.choose 1 with
  | false => simp [Prog.when, pure, asked, CallbacksFree, LockAction.after]
  | true =>
    obtain ⟨t, hclose, hbracketed, hdue⟩ :=
      Op.disconnectAll_quiet hw rounds (l := asked) (by simp [asked])
    obtain ⟨u, htrace, -, haccounted⟩ :=
      Prog.bind_trace (p := Op.disconnectAll rounds) Prog.outer_sequential
        (fun _ => @Op.closeNotice_whole fun _ => False) w asked
    have hfree : CallbacksFree u := haccounted.callbacksFree_iff.mpr fun _ _ => id
    have hasked : CallbacksFree asked.trace := by simp [asked, CallbacksFree, LockAction.after]
    have hsection := Bracketed.guarded Mutex.sockets (Nat.le_refl 0) hbracketed .nil
    rw [Prog.when, if_pos rfl, Op.onEngineioClose, htrace, hclose,
      (hbefore.append hsection).callbacksFree_append, hbefore.callbacksFree_append,
      hbracketed.callbacksFree_guarded (m := Mutex.sockets)]
    simpa [hfree, hasked] using not_congr hdue

/-- The notification is current, and one namespace is connected with a
disconnect listener. -/
theorem engineioClose_unlocked_iff_connected :
    let w : World ClientImpl := { choose := fun _ => true }
    let c : ClientImpl :=
      { sockets := AList.singleton (ascii "/") { connected := true, onDisconnect := some 0 } }
    CallbacksFree (Operation.engineioClose.trace 0 w c) ↔
      (w.choose 1 = true → ∀ nsp ∈ c.sockets, ¬ (c.socketAt nsp).AnnouncesDisconnect) :=
  engineioClose_unlocked_iff (fun _ _ => rfl) 0 _

end Sioxx
