/-
Sioxx.Socket.TimedAckTheorems — one outcome for every timed emission.

`Machine.timedAcks` shows the timed acknowledgements of a machine, and
`step_timedAcks` that each step of the machine is one step of
`TimedAcks`. `timedAcks_law` then gives the laws in every reachable state,
and `oneOutcome` reads off what they mean for the callbacks.
-/
import Sioxx.Lib.Run
import Sioxx.Socket.MachineTheorems
import Sioxx.Socket.TimedAck

namespace Sioxx

open Lib

/-- The id a task is about to pass to `expire_ack`. -/
def Task.expiringId : Task → Option Int
  | .flushExpiring out => some out.packet.id
  | .workerExpiring id => some id
  | _ => none

/-- The callback a task has claimed and not yet called. -/
def Task.waitingClaim : Task → Option (Caller × Claim)
  | .claimed caller claim => some (caller, claim)
  | _ => none

theorem TimedAcks.Step.of_eq {v v' : TimedAcks} (h : v' = v) : TimedAcks.Step v v' := by
  rw [h]
  exact .skip v

namespace Machine

def timedAcks (m : Machine) : TimedAcks where
  table := m.sock.timedAcks
  scheduler := m.sock.ackScheduler
  nextId := m.sock.nextAckId
  now := m.now
  emitted := m.emitted
  registered := m.registered
  acks := m.acks
  expiring := m.tasks.filterMap Task.expiringId
  claims := m.tasks.filterMap Task.waitingClaim
  invoked := m.invoked
  cancelled := m.cancelled

/-! ## The steps of a machine -/

/-- A task step that changes neither the ids being expired nor the claims. -/
theorem task_frame {m : Machine} {i : Nat} {task : Task} (htask : m.tasks[i]? = some task)
    (hexpiring : task.expiringId = none) (hclaim : task.waitingClaim = none) :
    (∀ b : Task, b.expiringId = none → b.waitingClaim = none →
        (m.tasks.set i b).filterMap Task.expiringId = m.tasks.filterMap Task.expiringId ∧
        (m.tasks.set i b).filterMap Task.waitingClaim = m.tasks.filterMap Task.waitingClaim) ∧
      (m.tasks.eraseIdx i).filterMap Task.expiringId = m.tasks.filterMap Task.expiringId ∧
      (m.tasks.eraseIdx i).filterMap Task.waitingClaim = m.tasks.filterMap Task.waitingClaim := by
  obtain ⟨hidsSet, hidsErase⟩ := pool_filterMap_same Task.expiringId htask
  obtain ⟨hclaimsSet, hclaimsErase⟩ := pool_filterMap_same Task.waitingClaim htask
  refine ⟨fun b hb hb' => ⟨?_, ?_⟩, hidsErase hexpiring, hclaimsErase hclaim⟩
  · exact hidsSet b (hb.trans hexpiring.symm)
  · exact hclaimsSet b (hb'.trans hclaim.symm)

/-- `expire_ack` finds that somebody else has claimed the callback. -/
theorem lost_timedAcks {m lost : Machine} {i : Nat} {id : Int} {task : Task}
    (htask : m.tasks[i]? = some task) (hexpiring : task.expiringId = some id)
    (hclaim : task.waitingClaim = none)
    (hlost : lost = m.setTask i .flushing ∨ lost = m.endTask i) :
    TimedAcks.Step m.timedAcks lost.timedAcks := by
  obtain ⟨p, q, hids, hidsSet, hidsErase⟩ := pool_filterMap Task.expiringId htask
  obtain ⟨cp, cq, hclaims, hclaimsSet, hclaimsErase⟩ := pool_filterMap Task.waitingClaim htask
  rw [hexpiring] at hids
  rw [hclaim] at hclaims
  have hlose : TimedAcks.Step m.timedAcks _ := TimedAcks.Step.lose m.timedAcks (p ++ q) (by
    intro k hk
    simp only [timedAcks, hids]
    simp only [List.mem_append] at hk ⊢
    tauto)
  rcases hlost with rfl | rfl
  · convert hlose using 1
    simp only [timedAcks, setTask, hidsSet, hclaimsSet, hclaims]
    simp [Task.expiringId, Task.waitingClaim]
  · convert hlose using 1
    simp only [timedAcks, endTask, hidsErase, hclaimsErase, hclaims]
    simp

/-- `expire_ack` takes the callback. -/
theorem claim_timedAcks {m : Machine} {i : Nat} {caller : Caller} {id : Int} {callback : Nat}
    {task : Task} {sock : Socket} (htask : m.tasks[i]? = some task)
    (hexpiring : task.expiringId = some id) (hclaim : task.waitingClaim = none)
    (hlookup : m.sock.timedAcks.lookup id = some callback)
    (hsock : sock = { m.sock with
      timedAcks := m.sock.timedAcks.erase id
      activeTimedAcks := m.sock.activeTimedAcks + 1 }.dropBuffered id) :
    TimedAcks.Step m.timedAcks
      ((m.setTask i (.claimed caller ⟨id, callback, .timeout, .null⟩)).removing sock
        (fun b => b.packet.id = id) .expiry).timedAcks := by
  subst hsock
  obtain ⟨p, q, hids, hidsSet, -⟩ := pool_filterMap Task.expiringId htask
  obtain ⟨cp, cq, hclaims, hclaimsSet, -⟩ := pool_filterMap Task.waitingClaim htask
  rw [hexpiring] at hids
  rw [hclaim] at hclaims
  refine TimedAcks.Step.expire m.timedAcks id callback caller _ _ ?_ hlookup ?_ ?_
  · simp only [timedAcks, hids]
    simp
  · intro k hk
    simp only [timedAcks, removing, setTask, hidsSet, hids] at hk ⊢
    simp only [Task.expiringId, Option.toList_none, List.append_nil, List.mem_append] at hk ⊢
    tauto
  · simp only [timedAcks, removing, setTask, hclaimsSet, hclaims, Task.waitingClaim]
    simp

/-- A flusher gives up an expired packet. -/
theorem flushExpire_timedAcks {m : Machine} {i : Nat} {out : Outgoing} {rest : List Outgoing}
    {removed : List (Outgoing × Removal)} (htask : m.tasks[i]? = some .flushing)
    (hmem : out.packet.id ∈ m.sock.timedAcks)
    (hexpired : m.sock.ackScheduler.expired out.packet.id m.now = true) :
    TimedAcks.Step m.timedAcks
      { m.setTask i (.flushExpiring out) with
        sock := { m.sock with sendBuffer := rest }, removed }.timedAcks := by
  obtain ⟨p, q, hids, hidsSet, -⟩ := pool_filterMap Task.expiringId htask
  obtain ⟨cp, cq, hclaims, hclaimsSet, -⟩ := pool_filterMap Task.waitingClaim htask
  have hgive : TimedAcks.Step m.timedAcks _ := TimedAcks.Step.giveUp m.timedAcks out.packet.id
    (p ++ [out.packet.id] ++ q) hmem hexpired (by
      intro k hk
      simp only [timedAcks, hids]
      simp only [Task.expiringId, Option.toList_none, List.append_nil, List.mem_append,
        List.mem_singleton] at hk ⊢
      tauto)
  convert hgive using 1
  simp only [timedAcks, setTask, hidsSet, hclaimsSet, hclaims]
  simp [Task.expiringId, Task.waitingClaim]

theorem invoke_timedAcks {m : Machine} {i : Nat} {caller : Caller} {claim : Claim}
    (htask : m.tasks[i]? = some (.claimed caller claim)) :
    TimedAcks.Step m.timedAcks
      { m.setTask i (.running caller claim) with
        invoked := m.invoked ++ [Invocation.mk caller claim m.now] }.timedAcks := by
  obtain ⟨p, q, hids, hidsSet, -⟩ := pool_filterMap Task.expiringId htask
  obtain ⟨cp, cq, hclaims, hclaimsSet, -⟩ := pool_filterMap Task.waitingClaim htask
  have hinvoke : TimedAcks.Step m.timedAcks _ :=
    TimedAcks.Step.invoke m.timedAcks caller claim (cp ++ cq) (by
      simp only [timedAcks, hclaims]
      simp [Task.waitingClaim])
  convert hinvoke using 1
  simp only [timedAcks, setTask, hidsSet, hids, hclaimsSet]
  simp [Task.expiringId, Task.waitingClaim]

/-- **One step of the machine is one step of its timed acknowledgements.** -/
theorem step_timedAcks {m m' : Machine} {a : Action} (h : m.step a = some m') :
    TimedAcks.Step m.timedAcks m'.timedAcks := by
  cases step_cases h with
  | emit => exact TimedAcks.Step.emit m.timedAcks _ rfl rfl
  | registerAck => exact TimedAcks.Step.emitAck m.timedAcks _ rfl rfl
  | registerTimed t event data deadline =>
    exact TimedAcks.Step.register m.timedAcks _ deadline rfl rfl rfl
  | startFlush =>
    refine .of_eq ?_
    simp [timedAcks, addTask, Task.expiringId, Task.waitingClaim]
  | flushEnd i throws htask | flushAbort i out htask =>
    obtain ⟨-, hids, hclaims⟩ := task_frame htask rfl rfl
    refine .of_eq ?_
    simp only [timedAcks, endTask, hids, hclaims]
  | flushPop i throws out rest htask =>
    obtain ⟨hset, -⟩ := task_frame htask rfl rfl
    obtain ⟨hids, hclaims⟩ := hset (.flushSending out) rfl rfl
    refine .of_eq ?_
    simp only [timedAcks, setTask, hids, hclaims]
  | flushExpire i throws out rest htask hconnected hqueue hmem hexpired =>
    exact flushExpire_timedAcks htask hmem hexpired
  | flushSent i out htask =>
    obtain ⟨hset, -⟩ := task_frame htask rfl rfl
    obtain ⟨hids, hclaims⟩ := hset .flushing rfl rfl
    refine .of_eq ?_
    simp only [timedAcks, setTask, hids, hclaims]
  | flushLost i throws out htask => exact lost_timedAcks htask rfl rfl (.inl rfl)
  | workerLost i throws id htask => exact lost_timedAcks htask rfl rfl (.inr rfl)
  | claim i throws caller id callback task htask hwho hlookup =>
    rcases hwho with ⟨-, out, rfl, rfl⟩ | ⟨-, rfl⟩
    · exact claim_timedAcks htask rfl rfl hlookup rfl
    · exact claim_timedAcks htask rfl rfl hlookup rfl
  | invoke i throws caller claim htask => exact invoke_timedAcks htask
  | flushResume i claim htask =>
    obtain ⟨hset, -⟩ := task_frame htask rfl rfl
    obtain ⟨hids, hclaims⟩ := hset .flushing rfl rfl
    refine .of_eq ?_
    simp only [timedAcks, setTask, hids, hclaims, Socket.finishTimedAck]
  | flushThrow i claim htask | callbackEnd i throws caller claim htask =>
    obtain ⟨-, hids, hclaims⟩ := task_frame htask rfl rfl
    refine .of_eq ?_
    simp only [timedAcks, endTask, hids, hclaims, Socket.finishTimedAck]
  | ackTimed id data callback hlookup =>
    have hack : TimedAcks.Step m.timedAcks _ :=
      TimedAcks.Step.acknowledge m.timedAcks id data callback _ hlookup rfl
    convert hack using 1
    simp only [timedAcks, removing, addTask, List.filterMap_append]
    simp only [Task.expiringId, Task.waitingClaim, Socket.dropBuffered, List.filterMap_cons,
      List.filterMap_nil, List.append_nil]
    rfl
  | ackPlain id data | ackUnknown id data => exact TimedAcks.Step.ignoreAck m.timedAcks id data
  | workerPop id scheduler hworker hpop =>
    have hstep : TimedAcks.Step m.timedAcks _ := TimedAcks.Step.pop m.timedAcks id scheduler hpop
    convert hstep using 1
    simp [timedAcks, addTask, Task.expiringId, Task.waitingClaim]
  | cancel => exact TimedAcks.Step.cancel m.timedAcks
  | tick elapsed => exact TimedAcks.Step.tick m.timedAcks elapsed
  | _ => exact .of_eq rfl

/-! ## Every run -/

theorem timedAcks_law_init (nsp : Bytes) : (init nsp).timedAcks.Law where
  registry := by
    constructor <;> simp [init, timedAcks]
  scheduled := by
    constructor <;> simp [init, timedAcks]
  outcomes := by
    constructor <;> simp [init, timedAcks, TimedAcks.spent]

/-- The laws of timed acknowledgements hold after every run. -/
theorem timedAcks_law {nsp : Bytes} {as : List Action} {m : Machine}
    (h : run step (init nsp) as = some m) : m.timedAcks.Law :=
  run_preserves (fun m => m.timedAcks.Law)
    (fun _ _ _ hlaw hstep => (step_timedAcks hstep).law hlaw) (timedAcks_law_init nsp) h

/-- What a timed emission can come to. -/
structure OneOutcome (m : Machine) : Prop where
  /-- No callback is run twice. -/
  once : (m.invoked.map (·.claim.callback)).Nodup
  /-- Acknowledged means by a `dispatch_ack` of its id, before its deadline
  and with that acknowledgement's data. -/
  acknowledged : ∀ i ∈ m.invoked, i.claim.status = .acknowledged → i.caller = .dispatcher ∧
    ∃ r ∈ m.registered, r.callback = i.claim.callback ∧
      ∃ ack ∈ m.acks, ack.id = r.id ∧ ack.data = i.claim.data ∧ ack.time < r.deadline
  /-- Timed out means not before its deadline, and without data. -/
  timeout : ∀ i ∈ m.invoked, i.claim.status = .timeout →
    ∃ r ∈ m.registered, r.callback = i.claim.callback ∧ r.deadline ≤ i.time ∧ i.claim.data = .null
  /-- A callback that was cancelled is not run. -/
  cancelled : ∀ callback ∈ m.cancelled, ∀ i ∈ m.invoked, i.claim.callback ≠ callback

/-- **Exactly one outcome.** After any interleaving of the sections of a
socket, every timed callback has been run at most once and for its own
reason, and a cancelled one never. -/
theorem oneOutcome {nsp : Bytes} {as : List Action} {m : Machine}
    (h : run step (init nsp) as = some m) : OneOutcome m := by
  have hout := (timedAcks_law h).outcomes
  have honce : (m.timedAcks.claims.map (·.2.callback) ++ m.invoked.map (·.claim.callback)
      ++ m.cancelled).Nodup := hout.once
  obtain ⟨hruns, -, hdisjoint⟩ := List.nodup_append'.mp honce
  constructor
  · exact (List.nodup_append'.mp hruns).2.1
  · intro i hi hstatus
    obtain ⟨r, hr, hid, hcallback, hwhy⟩ := hout.invoked i hi
    rw [hstatus] at hwhy
    obtain ⟨hcaller, ack, hack, hackId, hdata, htime⟩ := hwhy
    exact ⟨hcaller, r, hr, hcallback, ack, hack, hackId, hdata, htime⟩
  · intro i hi hstatus
    obtain ⟨r, hr, -, hcallback, hwhy⟩ := hout.invoked i hi
    rw [hstatus] at hwhy
    exact ⟨r, hr, hcallback, hwhy.1, hwhy.2⟩
  · intro callback hmem i hi heq
    exact hdisjoint (List.mem_append_right _ (List.mem_map.mpr ⟨i, hi, heq⟩)) hmem

/-- Three timed emissions: one acknowledged, one that expires in the
buffer, and one cancelled. -/
def threeOutcomes : List Action :=
  [.emitTimed 0 (ascii "a") .null 1 true, .register 0, .decide 0,
   .dispatchAck 0 (.int 7), .task 0 false, .task 0 false,
   .emitTimed 0 (ascii "b") .null 1 true, .register 0, .decide 0,
   .tick 2000000, .workerPop, .task 0 false, .task 0 false, .dispatchAck 1 (.int 8),
   .emitTimed 0 (ascii "c") .null 1 true, .register 0, .decide 0,
   .cancelTimedAcks, .dispatchAck 2 (.int 9)]

theorem oneOutcome_threeOutcomes : ∃ m, run step (init (ascii "/")) threeOutcomes = some m ∧
    m.invoked.map (fun i => (i.claim.callback, i.claim.status))
      = [(0, .acknowledged), (1, .timeout)] ∧
    m.cancelled = [2] ∧ OneOutcome m :=
  ⟨_, rfl, rfl, rfl, @oneOutcome (ascii "/") threeOutcomes _ rfl⟩

end Machine

end Sioxx
