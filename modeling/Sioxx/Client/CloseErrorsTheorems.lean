/-
Sioxx.Client.CloseErrorsTheorems — shutting down a client completes,
whatever throws.

A captured step hands on the first exception and the client the step
leaves (`captureShutdownError_eq`), so the steps run as they would without
exceptions, and what is rethrown is the first exception among the calls
noted (`firstThrown`). The loop over the sockets touches one socket at a
time; `closeSockets_eq` says what it leaves at every position and which
calls it made.
-/
import Sioxx.Client.CloseErrors

namespace Sioxx.ClosingClient

open Lib

variable {ε : Type} (faults : ShutdownFaults ε)

/-- The first exception among some calls. -/
def firstThrown (calls : List (ShutdownCall × Option ε)) : Option ε := calls.findSome? (·.2)

@[simp] theorem firstThrown_nil : firstThrown ([] : List (ShutdownCall × Option ε)) = none := rfl

theorem firstThrown_append (calls calls' : List (ShutdownCall × Option ε)) :
    firstThrown (calls ++ calls') = (firstThrown calls).or (firstThrown calls') :=
  List.findSome?_append

theorem firstThrown_cons (call : ShutdownCall × Option ε)
    (calls : List (ShutdownCall × Option ε)) :
    firstThrown (call :: calls) = call.2.or (firstThrown calls) := by
  cases h : call.2 <;> simp [firstThrown, h]

/-- The call on the current Engine.IO client, if there is one. -/
theorem firstThrown_engineio (engineio : Option EngineIOClient) (call : ShutdownCall)
    (throws : EngineIOClient → Option ε) :
    firstThrown (engineio.toList.map fun engineio => (call, throws engineio))
      = engineio.bind throws := by
  cases engineio with
  | none => rfl
  | some engineio => simp [firstThrown_cons]

theorem captureShutdownError_eq (firstError : Option ε)
    (operation : ClosingClient ε → Option ε × ClosingClient ε) (c : ClosingClient ε) :
    captureShutdownError firstError operation c
      = (firstError.or (operation c).1, (operation c).2) := by
  rw [captureShutdownError]
  cases h : operation c with
  | mk thrown c' => cases thrown <;> cases firstError <;> rfl

/-! ## What the steps are to do -/

/-- The calls for the socket at position `i`. -/
def socketCalls (i : Nat) (sock : Socket) : List (ShutdownCall × Option ε) :=
  (.cancelTimedAcks i, none) ::
    if sock.connected then [(.disconnect i, faults.disconnect i)] else []

/-- The socket at position `i` afterwards. -/
def closedSocket (i : Nat) (sock : Socket) : Socket :=
  if sock.connected && (faults.disconnect i).isNone then sock.cancelTimedAcks.markDisconnected
  else sock.cancelTimedAcks

/-- The Engine.IO client after `sync_close()`. -/
def syncClosed (engineio : EngineIOClient) : EngineIOClient :=
  if (engineioCloseThrows faults engineio).isSome then engineio.close
  else engineio.close.stopHeartbeatTimer

/-- The calls of `close()`. -/
def closeCalls (c : ClosingClient ε) : List (ShutdownCall × Option ε) :=
  (c.sockets.mapIdx (socketCalls faults)).flatten ++
    c.engineio.toList.map fun engineio => (.engineioClose, engineioCloseThrows faults engineio)

/-- The calls `sync_close()` makes after `close()`. -/
def stopCalls (c : ClosingClient ε) : List (ShutdownCall × Option ε) :=
  (.stopReconnectThread, faults.stopReconnectThread) ::
    c.engineio.toList.map fun engineio =>
      (.engineioSyncClose, engineioSyncCloseThrows faults engineio.close)

/-- The waits at the end of `sync_close()`. -/
def waitCalls (c : ClosingClient ε) : List (ShutdownCall × Option ε) :=
  c.socketsSnapshot.map fun i => (.waitForTimedAcks i, none)

/-! ## One socket -/

theorem modify_length (closed todo : List Socket) (sock : Socket) (f : Socket → Socket) :
    (closed ++ sock :: todo).modify closed.length f = closed ++ f sock :: todo := by
  induction closed with
  | nil => rfl
  | cons s closed ih => simp [ih]

theorem updateSocket_append (c : ClosingClient ε) (closed todo : List Socket) (sock : Socket)
    (f : Socket → Socket) :
    { c with sockets := closed ++ sock :: todo }.updateSocket closed.length f
      = { c with sockets := closed ++ f sock :: todo } := by
  rw [updateSocket, modify_length]

theorem connected_append (c : ClosingClient ε) (closed todo : List Socket) (sock : Socket) :
    { c with sockets := closed ++ sock :: todo }.connected closed.length = sock.connected := by
  simp [connected]

/-- One turn of the loop of `close()`. -/
theorem closeSocket_eq (c : ClosingClient ε) (closed todo : List Socket) (sock : Socket) :
    disconnectIfConnected faults closed.length
        ({ c with sockets := closed ++ sock :: todo }.cancelTimedAcks closed.length)
      = (firstThrown (socketCalls faults closed.length sock),
        { c with
          sockets := closed ++ closedSocket faults closed.length sock :: todo
          calls := c.calls ++ socketCalls faults closed.length sock }) := by
  rw [cancelTimedAcks, updateSocket_append, disconnectIfConnected]
  have hconnected : (called { c with sockets := closed ++ sock.cancelTimedAcks :: todo }
      (.cancelTimedAcks closed.length) none).connected closed.length = sock.connected :=
    connected_append c closed todo sock.cancelTimedAcks
  rw [hconnected]
  cases hsock : sock.connected with
  | false => simp [called, socketCalls, closedSocket, hsock, firstThrown]
  | true =>
    cases hfault : faults.disconnect closed.length with
    | some e =>
      simp [disconnect, hfault, called, socketCalls, closedSocket, hsock, firstThrown]
    | none =>
      simp [disconnect, hfault, called, socketCalls, closedSocket, hsock, firstThrown,
        updateSocket, modify_length]

/-- The loop of `close()` from some position on. -/
theorem closeSockets_eq (todo : List Socket) : ∀ (closed : List Socket) (firstError : Option ε)
    (c : ClosingClient ε),
    closeSockets faults (List.range' closed.length todo.length) firstError
        { c with sockets := closed ++ todo }
      = (firstError.or (firstThrown
          (todo.mapIdx fun k => socketCalls faults (closed.length + k)).flatten),
        { c with
          sockets := closed ++ todo.mapIdx fun k => closedSocket faults (closed.length + k)
          calls := c.calls ++
            (todo.mapIdx fun k => socketCalls faults (closed.length + k)).flatten }) := by
  induction todo with
  | nil =>
    intro closed firstError c
    simp [closeSockets]
  | cons sock todo ih =>
    intro closed firstError c
    rw [List.length_cons, List.range'_succ, closeSockets, captureShutdownError_eq, closeSocket_eq]
    have hrest := ih (closed ++ [closedSocket faults closed.length sock])
      (firstError.or (firstThrown (socketCalls faults closed.length sock)))
      { c with calls := c.calls ++ socketCalls faults closed.length sock }
    simp only [List.length_append, List.length_singleton, List.append_assoc,
      List.singleton_append] at hrest
    simp only [hrest, List.mapIdx_cons, List.flatten_cons, firstThrown_append, Option.or_assoc,
      Nat.add_zero, Nat.add_assoc, Nat.add_comm 1]

/-! ## The whole shutdown -/

theorem closeEngineio_eq (c : ClosingClient ε) :
    closeEngineio faults c
      = (c.engineio.bind (engineioCloseThrows faults),
        { c with
          engineio := c.engineio.map EngineIOClient.close
          calls := c.calls ++ c.engineio.toList.map fun engineio =>
            (.engineioClose, engineioCloseThrows faults engineio) }) := by
  obtain ⟨intentionalClose, sockets, engineio, reconnectThread, calls⟩ := c
  cases engineio with
  | none => simp [closeEngineio]
  | some engineio => rfl

/-- What `close()` does, whatever throws. -/
theorem close_eq (c : ClosingClient ε) :
    close faults c
      = (firstThrown (closeCalls faults c),
        { c with
          intentionalClose := true
          sockets := c.sockets.mapIdx (closedSocket faults)
          engineio := c.engineio.map EngineIOClient.close
          calls := c.calls ++ closeCalls faults c }) := by
  have hloop := closeSockets_eq faults c.sockets [] none { c with intentionalClose := true }
  simp only [List.length_nil, List.nil_append, ← List.range_eq_range', Nat.zero_add,
    Option.none_or] at hloop
  simp only [close, socketsSnapshot, hloop, captureShutdownError_eq, closeEngineio_eq, closeCalls,
    firstThrown_append, firstThrown_engineio, List.append_assoc]

theorem waitForTimedAcks_eq (todo : List Socket) : ∀ (waited : List Socket) (c : ClosingClient ε),
    (List.range' waited.length todo.length).foldl waitForTimedAcks
        { c with sockets := waited ++ todo }
      = { c with
          sockets := waited ++ todo.map fun sock => { sock with activeTimedAcks := 0 }
          calls := c.calls ++
            (List.range' waited.length todo.length).map fun i => (.waitForTimedAcks i, none) } := by
  induction todo with
  | nil =>
    intro waited c
    simp
  | cons sock todo ih =>
    intro waited c
    rw [List.length_cons, List.range'_succ, List.foldl_cons, waitForTimedAcks, updateSocket_append]
    have hrest := ih (waited ++ [{ sock with activeTimedAcks := 0 }])
      { c with calls := c.calls ++ [(.waitForTimedAcks waited.length, none)] }
    simp only [List.length_append, List.length_singleton, List.append_assoc,
      List.singleton_append] at hrest
    simp only [called, hrest, List.map_cons]

theorem waitAll_eq (c : ClosingClient ε) :
    c.socketsSnapshot.foldl waitForTimedAcks c
      = { c with
          sockets := c.sockets.map fun sock => { sock with activeTimedAcks := 0 }
          calls := c.calls ++ waitCalls c } := by
  have hwait := waitForTimedAcks_eq c.sockets [] c
  simp only [List.length_nil, List.nil_append, ← List.range_eq_range'] at hwait
  exact hwait

theorem syncCloseEngineio_eq (c : ClosingClient ε) :
    syncCloseEngineio faults c
      = (c.engineio.bind (engineioSyncCloseThrows faults),
        { c with
          engineio := c.engineio.map (syncClosed faults)
          calls := c.calls ++ c.engineio.toList.map fun engineio =>
            (.engineioSyncClose, engineioSyncCloseThrows faults engineio) }) := by
  obtain ⟨intentionalClose, sockets, engineio, reconnectThread, calls⟩ := c
  cases engineio with
  | none => simp [syncCloseEngineio]
  | some engineio => rfl

/-- What `sync_close()` does, whatever throws. -/
theorem syncClose_eq (c : ClosingClient ε) :
    syncClose faults c
      = (firstThrown (closeCalls faults c ++ stopCalls faults c),
        { c with
          intentionalClose := true
          sockets := (c.sockets.mapIdx (closedSocket faults)).map fun sock =>
            { sock with activeTimedAcks := 0 }
          engineio := (c.engineio.map EngineIOClient.close).map (syncClosed faults)
          reconnectThread := c.reconnectThread && faults.stopReconnectThread.isSome
          calls := c.calls ++ (closeCalls faults c ++ stopCalls faults c ++ waitCalls c) }) := by
  have hcalls : stopCalls faults c = (.stopReconnectThread, faults.stopReconnectThread) ::
      (c.engineio.map EngineIOClient.close).toList.map fun engineio =>
        (.engineioSyncClose, engineioSyncCloseThrows faults engineio) := by
    rw [stopCalls, Option.toList_map, List.map_map]
    rfl
  simp only [syncClose, captureShutdownError_eq, close_eq, stopReconnectThread, called,
    syncCloseEngineio_eq, waitAll_eq, firstThrown_append, hcalls, firstThrown_cons,
    firstThrown_engineio, Option.none_or, Option.or_assoc, List.append_assoc, List.cons_append,
    List.nil_append]
  simp [waitCalls, socketsSnapshot]

/-! ## Shutting down completes -/

theorem firstThrown_isSome_iff {calls : List (ShutdownCall × Option ε)} :
    (firstThrown calls).isSome = true ↔ ∃ call ∈ calls, call.2.isSome = true :=
  List.findSome?_isSome_iff

/-- The exception of a call before which nothing threw. -/
theorem firstThrown_eq_some_iff {calls : List (ShutdownCall × Option ε)} {e : ε} :
    firstThrown calls = some e ↔ ∃ before call after,
      calls = before ++ (call, some e) :: after ∧ ∀ earlier ∈ before, earlier.2 = none := by
  rw [firstThrown, List.findSome?_eq_some_iff]
  constructor
  · rintro ⟨before, ⟨call, thrown⟩, after, rfl, rfl, hbefore⟩
    exact ⟨before, call, after, rfl, hbefore⟩
  · rintro ⟨before, call, after, rfl, hbefore⟩
    exact ⟨before, (call, some e), after, rfl, rfl, hbefore⟩

/-- `close()` does all of its work and reports the first failure. -/
structure CloseCompletes (c : ClosingClient ε) : Prop where
  /-- Position by position: cancel, and disconnect what is connected; then
  close the Engine.IO client. -/
  calls : (close faults c).2.calls = c.calls ++ closeCalls faults c
  sockets : (close faults c).2.sockets = c.sockets.mapIdx (closedSocket faults)
  cancelled : ∀ sock ∈ (close faults c).2.sockets,
    sock.timedAcks = ∅ ∧ sock.timedAcksClosed = true ∧ sock.ackScheduler = {}
  engineio : (close faults c).2.engineio = c.engineio.map EngineIOClient.close
  intentionalClose : (close faults c).2.intentionalClose = true
  throws : (close faults c).1.isSome = true ↔
    ∃ call ∈ closeCalls faults c, call.2.isSome = true
  first : ∀ e, (close faults c).1 = some e ↔ ∃ before call after,
    closeCalls faults c = before ++ (call, some e) :: after ∧
      ∀ earlier ∈ before, earlier.2 = none

/-- So does `sync_close()`. -/
structure SyncCloseCompletes (c : ClosingClient ε) : Prop where
  calls : (syncClose faults c).2.calls
    = c.calls ++ (closeCalls faults c ++ stopCalls faults c ++ waitCalls c)
  waited : ∀ sock ∈ (syncClose faults c).2.sockets,
    sock.activeTimedAcks = 0 ∧ sock.timedAcks = ∅ ∧ sock.timedAcksClosed = true
  intentionalClose : (syncClose faults c).2.intentionalClose = true
  throws : (syncClose faults c).1.isSome = true ↔
    ∃ call ∈ closeCalls faults c ++ stopCalls faults c, call.2.isSome = true
  first : ∀ e, (syncClose faults c).1 = some e ↔ ∃ before call after,
    closeCalls faults c ++ stopCalls faults c = before ++ (call, some e) :: after ∧
      ∀ earlier ∈ before, earlier.2 = none

theorem closedSocket_cancelled (i : Nat) (sock : Socket) :
    (closedSocket faults i sock).timedAcks = ∅ ∧
      (closedSocket faults i sock).timedAcksClosed = true ∧
      (closedSocket faults i sock).ackScheduler = {} := by
  rw [closedSocket]
  split
  · exact ⟨rfl, rfl, rfl⟩
  · exact ⟨rfl, rfl, rfl⟩

/-- Every shutdown completes. -/
theorem shutdown_completes (c : ClosingClient ε) :
    CloseCompletes faults c ∧ SyncCloseCompletes faults c := by
  have hcancelled : ∀ sock ∈ c.sockets.mapIdx (closedSocket faults),
      sock.timedAcks = ∅ ∧ sock.timedAcksClosed = true ∧ sock.ackScheduler = {} := by
    intro sock hsock
    obtain ⟨i, hi, rfl⟩ := List.mem_mapIdx.mp hsock
    exact closedSocket_cancelled faults i _
  constructor
  · constructor
    case cancelled =>
      rw [close_eq]
      exact hcancelled
    case throws =>
      rw [close_eq]
      exact firstThrown_isSome_iff
    case first =>
      intro e
      rw [close_eq]
      exact firstThrown_eq_some_iff
    all_goals rw [close_eq]
  · constructor
    case waited =>
      intro sock hsock
      rw [syncClose_eq] at hsock
      obtain ⟨closed, hclosed, rfl⟩ := List.mem_map.mp hsock
      obtain ⟨hacks, hshut, -⟩ := hcancelled closed hclosed
      exact ⟨rfl, hacks, hshut⟩
    case throws =>
      rw [syncClose_eq]
      exact firstThrown_isSome_iff
    case first =>
      intro e
      rw [syncClose_eq]
      exact firstThrown_eq_some_iff
    all_goals rw [syncClose_eq]

/-- Two connected sockets of which the second fails, and a transport that
fails too. -/
example :
    let faults : ShutdownFaults Nat :=
      { disconnect := fun i => if i = 1 then some 7 else none, transportClose := some 8 }
    let c : ClosingClient Nat :=
      { sockets := [{ connected := true }, { connected := true }], engineio := some {} }
    (close faults c).1 = some 7 ∧ (close faults c).2.calls =
      [(.cancelTimedAcks 0, none), (.disconnect 0, none), (.cancelTimedAcks 1, none),
        (.disconnect 1, some 7), (.engineioClose, some 8)] := by
  decide

end Sioxx.ClosingClient
