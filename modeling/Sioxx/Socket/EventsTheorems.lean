/-
Sioxx.Socket.EventsTheorems — which listeners an event reaches, and how
often it is acknowledged.

  §1 The registry     — the four containers hold, slot by slot, what was
                        registered last and not removed since
                        (`Registered`). A slot holds one listener, so the
                        containers exclude each other.
  §2 One dispatch     — its calls are those of the listeners it picked,
                        in order (`Dispatch.Sound`).
  §3 Acknowledgements — what has been sent for a dispatch, together with
                        what is about to be, is the first reply
                        (`Answered`).
-/
import Sioxx.Socket.Events
import Sioxx.Socket.SocketTheorems
import Sioxx.Lib.Latest

namespace Sioxx

open Lib

namespace Events

variable {callable : Nat → Bool}

/-! ## §1 The registry -/

/-- What a registration does to a slot. -/
def Change.effect : Change → Slot → Option (Option Listener)
  | .on event listener, .named event' => if event = event' then some (some listener) else none
  | .onAny listener, .any => some (some listener)
  | .off event, .named event' => if event = event' then some none else none
  | .offAll, _ => some none
  | _, _ => none

/-- The listener was registered for the slot, and nothing has replaced or
removed it since. -/
def Current (changes : List Change) (slot : Slot) (listener : Listener) : Prop :=
  Latest Change.effect changes slot listener

/-- The containers of the socket are the registry. -/
structure Registered (callable : Nat → Bool) (sock : Socket) (changes : List Change) : Prop where
  listeners : ∀ event n,
    sock.listeners.lookup event = some n ↔ Current changes (.named event) (.plain n)
  ackListeners : ∀ event n,
    sock.ackListeners.lookup event = some n ↔ Current changes (.named event) (.ack n)
  anyListener : ∀ n,
    sock.anyListener = some n ↔ Current changes .any (.plain n) ∧ callable n = true
  anyAckListener : ∀ n,
    sock.anyAckListener = some n ↔ Current changes .any (.ack n) ∧ callable n = true

theorem registered_init (nsp : Bytes) : Registered callable { nsp := nsp } [] := by
  refine ⟨fun event n => ?_, fun event n => ?_, fun n => ?_, fun n => ?_⟩ <;>
    simp [Current]

theorem current_snoc {changes : List Change} {change : Change} {slot : Slot}
    {listener : Listener} :
    Current (changes ++ [change]) slot listener ↔
      change.effect slot = some (some listener) ∨
        change.effect slot = none ∧ Current changes slot listener :=
  latest_snoc

theorem lookup_insert_iff {m : AList (fun _ : Bytes => Nat)} {event key : Bytes} {value n : Nat} :
    (m.insert key value).lookup event = some n ↔
      key = event ∧ value = n ∨ key ≠ event ∧ m.lookup event = some n := by
  by_cases h : key = event
  · subst h
    simp [AList.lookup_insert]
  · simp [AList.lookup_insert_ne (Ne.symm h), h]

theorem lookup_erase_iff {m : AList (fun _ : Bytes => Nat)} {event key : Bytes} {n : Nat} :
    (m.erase key).lookup event = some n ↔ key ≠ event ∧ m.lookup event = some n := by
  by_cases h : key = event
  · subst h
    simp [AList.lookup_erase]
  · simp [AList.lookup_erase_ne (Ne.symm h), h]

/-- Each overload puts its listener into the slot in one container and
takes the slot out of the other. -/
theorem Registered.change {sock : Socket} {changes : List Change}
    (h : Registered callable sock changes) (change : Change) :
    Registered callable (sock.change callable change) (changes ++ [change]) := by
  obtain ⟨hl, hal, ha, haa⟩ := h
  cases change with
  | on key listener =>
    cases listener with
    | plain value =>
      refine ⟨fun event n => ?_, fun event n => ?_, fun n => ?_, fun n => ?_⟩ <;>
        rw [current_snoc]
      · simp [Socket.change, Socket.on, Change.effect, lookup_insert_iff, hl]
      · simp [Socket.change, Socket.on, Change.effect, lookup_erase_iff, hal]
      · simp [Socket.change, Socket.on, Change.effect, ha]
      · simp [Socket.change, Socket.on, Change.effect, haa]
    | ack value =>
      refine ⟨fun event n => ?_, fun event n => ?_, fun n => ?_, fun n => ?_⟩ <;>
        rw [current_snoc]
      · simp [Socket.change, Socket.onAck, Change.effect, lookup_erase_iff, hl]
      · simp [Socket.change, Socket.onAck, Change.effect, lookup_insert_iff, hal]
      · simp [Socket.change, Socket.onAck, Change.effect, ha]
      · simp [Socket.change, Socket.onAck, Change.effect, haa]
  | onAny listener =>
    cases listener with
    | plain value =>
      refine ⟨fun event n => ?_, fun event n => ?_, fun n => ?_, fun n => ?_⟩ <;>
        rw [current_snoc]
      · simp [Socket.change, Socket.onAny, Change.effect, hl]
      · simp [Socket.change, Socket.onAny, Change.effect, hal]
      · simp [Socket.change, Socket.onAny, Change.effect]
        grind
      · simp [Socket.change, Socket.onAny, Change.effect]
    | ack value =>
      refine ⟨fun event n => ?_, fun event n => ?_, fun n => ?_, fun n => ?_⟩ <;>
        rw [current_snoc]
      · simp [Socket.change, Socket.onAnyAck, Change.effect, hl]
      · simp [Socket.change, Socket.onAnyAck, Change.effect, hal]
      · simp [Socket.change, Socket.onAnyAck, Change.effect]
      · simp [Socket.change, Socket.onAnyAck, Change.effect]
        grind
  | off key =>
    refine ⟨fun event n => ?_, fun event n => ?_, fun n => ?_, fun n => ?_⟩ <;>
      rw [current_snoc]
    · simp [Socket.change, Socket.off, Change.effect, lookup_erase_iff, hl]
    · simp [Socket.change, Socket.off, Change.effect, lookup_erase_iff, hal]
    · simp [Socket.change, Socket.off, Change.effect, ha]
    · simp [Socket.change, Socket.off, Change.effect, haa]
  | offAll =>
    refine ⟨fun event n => ?_, fun event n => ?_, fun n => ?_, fun n => ?_⟩ <;>
      rw [current_snoc] <;> simp [Socket.change, Socket.offAll, Change.effect]

/-- An event name is in one container only. -/
theorem Registered.exclusive {sock : Socket} {changes : List Change}
    (h : Registered callable sock changes) (event : Bytes) :
    ¬ (event ∈ sock.listeners ∧ event ∈ sock.ackListeners) := by
  rintro ⟨hplain, hack⟩
  obtain ⟨n, hn⟩ := Option.isSome_iff_exists.mp (AList.lookup_isSome.mpr hplain)
  obtain ⟨m, hm⟩ := Option.isSome_iff_exists.mp (AList.lookup_isSome.mpr hack)
  have := ((h.listeners event n).mp hn).unique ((h.ackListeners event m).mp hm)
  cases this

theorem Registered.exclusiveAny {sock : Socket} {changes : List Change}
    (h : Registered callable sock changes) :
    ¬ (sock.anyListener.isSome ∧ sock.anyAckListener.isSome) := by
  rintro ⟨hplain, hack⟩
  obtain ⟨n, hn⟩ := Option.isSome_iff_exists.mp hplain
  obtain ⟨m, hm⟩ := Option.isSome_iff_exists.mp hack
  have := ((h.anyListener n).mp hn).1.unique ((h.anyAckListener m).mp hm).1
  cases this

/-! ## §2 One dispatch -/

/-- The calls a dispatch has made when it is at a point of its code. -/
def Dispatch.callsAt (d : Dispatch) : DispatchPc → List Call
  | .named => []
  | .any => d.namedCall.toList
  | .thrown => d.namedCall.toList
  | .returned => d.namedCall.toList ++ d.anyCall.toList

/-- The two copies for a slot hold its current listener, if that is not
empty. -/
structure Picks (callable : Nat → Bool) (changes : List Change) (slot : Slot)
    (plain ack : Option Nat) : Prop where
  plain : ∀ n, plain = some n ↔ Current changes slot (.plain n) ∧ callable n = true
  ack : ∀ n, ack = some n ↔ Current changes slot (.ack n) ∧ callable n = true

theorem Registered.picks_named {sock : Socket} {changes : List Change}
    (h : Registered callable sock changes) (event : Bytes) :
    Picks callable changes (.named event) (sock.pick callable event).listener
      (sock.pick callable event).ackListener := by
  refine ⟨fun n => ?_, fun n => ?_⟩
  · rw [← h.listeners]
    exact Option.filter_eq_some_iff
  · rw [← h.ackListeners]
    exact Option.filter_eq_some_iff

theorem Registered.picks_any {sock : Socket} {changes : List Change}
    (h : Registered callable sock changes) (event : Bytes) :
    Picks callable changes .any (sock.pick callable event).anyListener
      (sock.pick callable event).anyAckListener := by
  refine ⟨fun n => ?_, fun n => ?_⟩
  · refine Option.filter_eq_some_iff.trans ?_
    rw [h.anyListener]
    exact and_iff_left_of_imp fun hn => hn.2
  · refine Option.filter_eq_some_iff.trans ?_
    rw [h.anyAckListener]
    exact and_iff_left_of_imp fun hn => hn.2

/-- The listeners are those of the registry at the dispatch, and the calls
are as far as the program counter says. -/
structure Dispatch.Sound (callable : Nat → Bool) (d : Dispatch) : Prop where
  named : Picks callable d.changes (.named d.event) d.picked.listener d.picked.ackListener
  any : Picks callable d.changes .any d.picked.anyListener d.picked.anyAckListener
  calls : d.calls = d.callsAt d.pc

/-- A call of the listener in a slot, the last one registered there. -/
structure Dispatch.IsCall (callable : Nat → Bool) (d : Dispatch) (c : Call) : Prop where
  current : Current d.changes c.slot c.listener
  nonempty : callable c.listener.number = true
  event : c.event = d.event
  data : c.data = d.data
  acknowledge : c.acknowledge = true ↔ (∃ n, c.listener = .ack n) ∧ 0 ≤ d.ackId

variable {d : Dispatch} {slot : Slot} {plain ack : Option Nat}

theorem Picks.isCall {c : Call} (h : Picks callable d.changes slot plain ack)
    (hflag : ack.isSome → d.acknowledge = decide (d.ackId ≥ 0))
    (hc : d.callEither slot plain ack = some c) : c.slot = slot ∧ d.IsCall callable c := by
  cases plain with
  | some n =>
    cases hc
    obtain ⟨hcurrent, hcall⟩ := (h.plain n).mp rfl
    exact ⟨rfl, hcurrent, hcall, rfl, rfl, by simp⟩
  | none =>
    cases ack with
    | some n =>
      cases hc
      obtain ⟨hcurrent, hcall⟩ := (h.ack n).mp rfl
      exact ⟨rfl, hcurrent, hcall, rfl, rfl, by simp [hflag rfl]⟩
    | none => cases hc

/-- A current listener that is not empty is called. -/
theorem Picks.call_of_current {listener : Listener} (h : Picks callable d.changes slot plain ack)
    (hcurrent : Current d.changes slot listener) (hcall : callable listener.number = true) :
    ∃ c, d.callEither slot plain ack = some c ∧ c.slot = slot ∧ c.listener = listener := by
  cases listener with
  | plain n =>
    rw [(h.plain n).mpr ⟨hcurrent, hcall⟩]
    exact ⟨_, rfl, rfl, rfl⟩
  | ack n =>
    have hnone : plain = none := by
      cases plain with
      | none => rfl
      | some m =>
        have := ((h.plain m).mp rfl).1.unique hcurrent
        cases this
    rw [hnone, (h.ack n).mpr ⟨hcurrent, hcall⟩]
    exact ⟨_, rfl, rfl, rfl⟩

theorem Dispatch.Sound.namedCall_isCall {c : Call} (h : d.Sound callable)
    (hc : d.namedCall = some c) : c.slot = .named d.event ∧ d.IsCall callable c :=
  h.named.isCall (fun hsome => by simp [acknowledge, hsome]) hc

theorem Dispatch.Sound.anyCall_isCall {c : Call} (h : d.Sound callable)
    (hc : d.anyCall = some c) : c.slot = .any ∧ d.IsCall callable c :=
  h.any.isCall (fun hsome => by simp [acknowledge, hsome]) hc

/-- Whatever the program counter, the calls are a front part of the two. -/
theorem Dispatch.callsAt_prefix (d : Dispatch) (pc : DispatchPc) :
    d.callsAt pc <+: d.namedCall.toList ++ d.anyCall.toList := by
  cases pc with
  | named => exact List.nil_prefix
  | any => exact List.prefix_append _ _
  | thrown => exact List.prefix_append _ _
  | returned => exact List.prefix_refl _

theorem Dispatch.Sound.isCall {c : Call} (h : d.Sound callable) (hc : c ∈ d.calls) :
    d.IsCall callable c := by
  rw [h.calls] at hc
  have hc := (d.callsAt_prefix d.pc).subset hc
  rw [List.mem_append, Option.mem_toList, Option.mem_toList] at hc
  rcases hc with hc | hc
  · exact (h.namedCall_isCall hc).2
  · exact (h.anyCall_isCall hc).2

/-- The listener of the event comes first, and neither comes twice. -/
theorem Dispatch.Sound.slots (h : d.Sound callable) :
    (d.calls.map Call.slot).Sublist [.named d.event, .any] := by
  have hboth : (d.namedCall.toList ++ d.anyCall.toList).map Call.slot
      = (d.namedCall.toList.map fun _ => Slot.named d.event) ++
        d.anyCall.toList.map fun _ => .any := by
    rw [List.map_append]
    congr 1 <;> refine List.map_congr_left fun c hc => ?_
    · exact (h.namedCall_isCall (Option.mem_toList.mp hc)).1
    · exact (h.anyCall_isCall (Option.mem_toList.mp hc)).1
  have hsub := ((d.callsAt_prefix d.pc).sublist.map Call.slot)
  rw [← h.calls, hboth] at hsub
  refine hsub.trans ?_
  cases d.namedCall <;> cases d.anyCall <;> simp

/-! ## §3 Acknowledgements -/

/-- The arguments an acknowledgement carries for a reply. -/
def ackArguments : Json → List Json
  | .arr items => items
  | .null => []
  | reply => [reply]

theorem ackPacket_data (nsp : Bytes) (id : Int) (reply : Json) :
    Socket.ackPacket nsp id reply
      = { type := .ack, nsp, id, data := .arr (ackArguments reply) } := by
  cases reply <;> rfl

/-- What a dispatch is to be answered with: its first reply. -/
def Dispatch.answer (d : Dispatch) (nsp : Bytes) (i : Nat) : List SentAck :=
  match d.replies with
  | [] => []
  | reply :: _ =>
    [⟨i, 0, { type := .ack, nsp, id := d.ackId, data := .arr (ackArguments reply) }⟩]

/-- The ACK packets sent for dispatch `i`. -/
def acksOf (s : Events) (i : Nat) : List SentAck := s.acks.filter (·.dispatch == i)

/-- The ACK packets that threads in `send_ack` are about to send. -/
def pending (s : Events) : List SentAck := s.replying.map (·.ack s.sock.nsp)

def pendingOf (s : Events) (i : Nat) : List SentAck := s.pending.filter (·.dispatch == i)

/-- Both, in no particular order. -/
def answers (s : Events) (i : Nat) : List SentAck :=
  (s.acks ++ s.pending).filter (·.dispatch == i)

def alive (s : Events) : Bool := s.socketAlive && s.clientAlive

structure Answered (s : Events) (i : Nat) (d : Dispatch) : Prop where
  atMost : (s.answers i).Subperm (d.answer s.sock.nsp i)
  all : s.alive = true → (s.answers i).Perm (d.answer s.sock.nsp i)
  flag : d.sent = true ↔ d.replies ≠ []
  asked : d.replies ≠ [] → 0 ≤ d.ackId

structure Inv (callable : Nat → Bool) (nsp : Bytes) (s : Events) : Prop where
  nsp : s.sock.nsp = nsp
  registered : Registered callable s.sock s.changes
  sound : ∀ d ∈ s.dispatches, d.Sound callable
  answered : ∀ i d, s.dispatches[i]? = some d → s.Answered i d
  known : ∀ a ∈ s.acks ++ s.pending, a.dispatch < s.dispatches.length

theorem inv_init (nsp : Bytes) : Inv callable nsp (init nsp) := by
  refine ⟨rfl, registered_init nsp, ?_, ?_, ?_⟩ <;> simp [init, pending]

/-- Only a listener that was given the reply function has it. -/
theorem Dispatch.Sound.asked (h : d.Sound callable) (hout : d.handedOut = true) :
    0 ≤ d.ackId := by
  obtain ⟨c, hc, hack⟩ := List.any_eq_true.mp hout
  exact ((h.isCall hc).acknowledge.mp hack).2

variable {nsp : Bytes} {s s' : Events}

@[simp] theorem change_nsp (sock : Socket) (change : Change) :
    (sock.change callable change).nsp = sock.nsp := by
  cases change with
  | on event listener => cases listener <;> rfl
  | onAny listener => cases listener <;> rfl
  | off event => rfl
  | offAll => rfl

/-- A step of dispatch `i` is judged by its own answer: those of the others
stay as they are. -/
theorem Inv.replace {i : Nat} {d : Dispatch} (h : Inv callable nsp s) (hsock : s'.sock = s.sock)
    (hchanges : s'.changes = s.changes) (halive : s'.alive = s.alive)
    (hdispatches : s'.dispatches = s.dispatches.set i d) (hsound : d.Sound callable)
    (hown : s'.Answered i d) (hothers : ∀ k ≠ i, s'.answers k = s.answers k)
    (hknown : ∀ a ∈ s'.acks ++ s'.pending, a ∈ s.acks ++ s.pending ∨ a.dispatch = i)
    (hi : i < s.dispatches.length) : Inv callable nsp s' := by
  refine ⟨hsock ▸ h.nsp, ?_, fun e he => ?_, fun k e he => ?_, fun a ha => ?_⟩
  · rw [hsock, hchanges]
    exact h.registered
  · rw [hdispatches] at he
    rcases List.mem_or_eq_of_mem_set he with he | rfl
    · exact h.sound e he
    · exact hsound
  · rw [hdispatches, List.getElem?_set] at he
    split at he
    · rename_i hik
      subst hik
      cases he
      exact hown
    · rename_i hik
      have hans := h.answered k e he
      refine ⟨?_, fun hk => ?_, hans.flag, hans.asked⟩
      · rw [hothers k (Ne.symm hik), hsock]
        exact hans.atMost
      · rw [hothers k (Ne.symm hik), hsock]
        exact hans.all (halive ▸ hk)
  · rw [hdispatches, List.length_set]
    rcases hknown a ha with ha | rfl
    · exact h.known a ha
    · exact hi

/-- A dispatch that moves on without a reply. -/
theorem Inv.setDispatch {i : Nat} {d d' : Dispatch} (h : Inv callable nsp s)
    (hd : s.dispatches[i]? = some d) (hsound : d'.Sound callable)
    (hreplies : d'.replies = d.replies) (hsent : d'.sent = d.sent) (hid : d'.ackId = d.ackId) :
    Inv callable nsp (s.setDispatch i d') := by
  obtain ⟨hmost, hall, hflag, hasked⟩ := h.answered i d hd
  have hanswer : d'.answer s.sock.nsp i = d.answer s.sock.nsp i := by
    simp only [Dispatch.answer, hreplies, hid]
  refine h.replace rfl rfl rfl rfl hsound ⟨?_, fun halive => ?_, ?_, ?_⟩ (fun _ _ => rfl)
    (fun a ha => .inl ha) (List.getElem?_eq_some_iff.mp hd).1
  · exact hanswer ▸ hmost
  · exact hanswer ▸ hall halive
  · rw [hsent, hreplies]
    exact hflag
  · rw [hreplies, hid]
    exact hasked

/-- Packets that move from a thread to the client, or are dropped. -/
theorem Inv.moved (h : Inv callable nsp s) (hsock : s'.sock = s.sock)
    (hdispatches : s'.dispatches = s.dispatches) (hchanges : s'.changes = s.changes)
    (hsub : (s'.acks ++ s'.pending).Subperm (s.acks ++ s.pending))
    (hall : s'.alive = true →
      s.alive = true ∧ (s'.acks ++ s'.pending).Perm (s.acks ++ s.pending)) :
    Inv callable nsp s' := by
  refine ⟨hsock ▸ h.nsp, ?_, hdispatches ▸ h.sound, fun i d hd => ?_, fun a ha => ?_⟩
  · rw [hsock, hchanges]
    exact h.registered
  · rw [hdispatches] at hd
    have hans := h.answered i d hd
    refine ⟨?_, fun halive => ?_, hans.flag, hans.asked⟩
    · rw [hsock]
      exact (hsub.filter _).trans hans.atMost
    · rw [hsock]
      obtain ⟨hbefore, hperm⟩ := hall halive
      exact (hperm.filter _).trans (hans.all hbefore)
  · rw [hdispatches]
    exact h.known a (hsub.subset ha)

/-- A call of the reply function after the first changes no answer. -/
theorem Inv.acknowledge_again {i : Nat} {d : Dispatch} {reply : Json}
    (h : Inv callable nsp s) (hd : s.dispatches[i]? = some d) (hsent : d.sent = true) :
    Inv callable nsp (s.acknowledgeStep i d reply) := by
  obtain ⟨hmost, hall, hflag, hasked⟩ := h.answered i d hd
  obtain ⟨hnamed, hany, hcalls⟩ := h.sound d (List.mem_of_getElem? hd)
  obtain ⟨first, rest, hreplies⟩ := List.exists_cons_of_ne_nil (hflag.mp hsent)
  have hanswer : ({ d with sent := true, replies := d.replies ++ [reply] } : Dispatch).answer
      s.sock.nsp i = d.answer s.sock.nsp i := by
    simp [Dispatch.answer, hreplies]
  simp only [acknowledgeStep, hsent, if_true]
  refine h.replace rfl rfl rfl rfl ⟨hnamed, hany, hcalls⟩ ⟨?_, fun halive => ?_, ?_, ?_⟩
    (fun _ _ => rfl) (fun a ha => .inl ha) (List.getElem?_eq_some_iff.mp hd).1
  · exact hanswer ▸ hmost
  · exact hanswer ▸ hall halive
  · simp
  · exact fun _ => hasked (by simp [hreplies])

/-- The first call of the reply function is the answer. If the socket is
gone it is lost. -/
theorem Inv.acknowledge_first {i : Nat} {d : Dispatch} {reply : Json}
    (h : Inv callable nsp s) (hd : s.dispatches[i]? = some d) (hout : d.handedOut = true)
    (hsent : d.sent = false) : Inv callable nsp (s.acknowledgeStep i d reply) := by
  obtain ⟨hmost, hall, hflag, hasked⟩ := h.answered i d hd
  have hsound := h.sound d (List.mem_of_getElem? hd)
  have hi := (List.getElem?_eq_some_iff.mp hd).1
  have hreplies : d.replies = [] := by
    by_contra hne
    rw [hflag.mpr hne] at hsent
    cases hsent
  have hnone : s.answers i = [] := by
    simpa [Dispatch.answer, hreplies] using hmost
  by_cases halive : s.socketAlive = true
  · have hstep : s.acknowledgeStep i d reply
        = { s.setDispatch i { d with sent := true, replies := d.replies ++ [reply] } with
            replying := s.replying ++ [⟨i, d.replies.length, d.ackId, reply⟩] } := by
      simp [acknowledgeStep, hsent, halive]
    have hpending : (s.acknowledgeStep i d reply).acks ++ (s.acknowledgeStep i d reply).pending
        = s.acks ++ s.pending ++ [Reply.ack s.sock.nsp ⟨i, 0, d.ackId, reply⟩] := by
      simp [hstep, pending, Events.setDispatch, hreplies]
    have hanswers : ∀ k, (s.acknowledgeStep i d reply).answers k
        = s.answers k ++
          [Reply.ack s.sock.nsp ⟨i, 0, d.ackId, reply⟩].filter (·.dispatch == k) := by
      intro k
      rw [answers, hpending, List.filter_append]
      rfl
    have hown : (s.acknowledgeStep i d reply).answers i
        = ({ d with sent := true, replies := d.replies ++ [reply] } : Dispatch).answer
            s.sock.nsp i := by
      rw [hanswers i, hnone]
      simp [Dispatch.answer, hreplies, Reply.ack, ackPacket_data]
    refine h.replace (i := i) (d := { d with sent := true, replies := d.replies ++ [reply] })
      ?_ ?_ ?_ ?_ ⟨hsound.named, hsound.any, hsound.calls⟩ ⟨?_, ?_, ?_, ?_⟩ ?_ ?_ hi
    · rw [hstep]
      rfl
    · rw [hstep]
      rfl
    · rw [hstep]
      rfl
    · rw [hstep]
      rfl
    · rw [hown, hstep]
      exact List.Subperm.refl _
    · intro _
      rw [hown, hstep]
      exact List.Perm.refl _
    · simp
    · exact fun _ => hsound.asked hout
    · intro k hk
      rw [hanswers k]
      simp [Reply.ack, Ne.symm hk]
    · intro a ha
      rw [hpending, List.mem_append, List.mem_singleton] at ha
      rcases ha with ha | rfl
      · exact .inl ha
      · exact .inr rfl
  · rw [Bool.not_eq_true] at halive
    have hstep : s.acknowledgeStep i d reply
        = s.setDispatch i { d with sent := true, replies := d.replies ++ [reply] } := by
      simp [acknowledgeStep, hsent, halive]
    rw [hstep]
    refine h.replace rfl rfl rfl rfl ⟨hsound.named, hsound.any, hsound.calls⟩
      ⟨?_, fun hboth => ?_, ?_, ?_⟩ (fun _ _ => rfl) (fun a ha => .inl ha) hi
    · show (s.answers i).Subperm _
      rw [hnone]
      exact List.nil_subperm
    · simp [alive, Events.setDispatch, halive] at hboth
    · simp
    · exact fun _ => hsound.asked hout

theorem Inv.sendAck {j : Nat} {r : Reply} (h : Inv callable nsp s)
    (hr : s.replying[j]? = some r) (hstep : step callable s (.sendAck j) = some s') :
    Inv callable nsp s' := by
  obtain ⟨p, q, hl, -, herase⟩ := pool_split hr
  have hpending : s.pending
      = p.map (·.ack s.sock.nsp) ++ r.ack s.sock.nsp :: q.map (·.ack s.sock.nsp) := by
    simp [pending, hl]
  simp only [step, hr, herase, Option.some.injEq] at hstep
  subst hstep
  split
  · rename_i hclient
    have hperm : (s.acks ++ [r.ack s.sock.nsp] ++ (p ++ q).map (·.ack s.sock.nsp)).Perm
        (s.acks ++ s.pending) := by
      rw [hpending, List.map_append, List.append_assoc, List.perm_append_left_iff,
        List.singleton_append]
      exact List.perm_middle.symm
    exact h.moved rfl rfl rfl hperm.subperm fun halive => ⟨halive, hperm⟩
  · rename_i hclient
    have hsub : (s.acks ++ (p ++ q).map (·.ack s.sock.nsp)).Sublist (s.acks ++ s.pending) := by
      rw [hpending, List.map_append, List.append_sublist_append_left]
      exact (List.sublist_cons_self _ _).append_left _
    refine h.moved rfl rfl rfl hsub.subperm fun halive => ?_
    simp [alive, hclient] at halive

theorem Inv.dispatch {event : Bytes} {data : Json} {ackId : Int} (h : Inv callable nsp s)
    (hstep : step callable s (.dispatch event data ackId) = some s') : Inv callable nsp s' := by
  simp only [step] at hstep
  split at hstep
  · cases hstep
    have hnone : s.answers s.dispatches.length = [] := by
      refine List.filter_eq_nil_iff.mpr fun a ha => ?_
      have := h.known a ha
      simp only [beq_iff_eq]
      omega
    refine ⟨h.nsp, h.registered, fun d hd => ?_, fun i d hd => ?_, fun a ha => ?_⟩
    · rw [List.mem_append, List.mem_singleton] at hd
      rcases hd with hd | rfl
      · exact h.sound d hd
      · exact ⟨h.registered.picks_named event, h.registered.picks_any event, rfl⟩
    · simp only [List.getElem?_append] at hd
      split at hd
      · have hans := h.answered i d hd
        exact ⟨hans.atMost, hans.all, hans.flag, hans.asked⟩
      · rename_i hi
        obtain ⟨hlt, rfl⟩ := List.getElem?_eq_some_iff.mp hd
        simp only [List.length_singleton] at hlt
        obtain rfl : i = s.dispatches.length := by omega
        simp only [Nat.sub_self, List.getElem_singleton]
        refine ⟨?_, fun _ => ?_, by simp, fun hne => absurd rfl hne⟩
        · exact List.Perm.subperm (hnone ▸ List.Perm.refl _)
        · exact hnone ▸ List.Perm.refl _
    · rw [List.length_append]
      have := h.known a ha
      omega
  · cases hstep

theorem Inv.change {change : Change} (h : Inv callable nsp s)
    (hstep : step callable s (.change change) = some s') : Inv callable nsp s' := by
  simp only [step] at hstep
  split at hstep
  · obtain rfl := Option.some.inj hstep
    refine ⟨?_, h.registered.change change, h.sound, fun i d hd => ?_, ?_⟩
    · rw [change_nsp]
      exact h.nsp
    · have hans := h.answered i d hd
      refine ⟨?_, fun halive => ?_, hans.flag, hans.asked⟩
      · simp only [answers, pending, change_nsp]
        exact hans.atMost
      · simp only [answers, pending, change_nsp]
        exact hans.all halive
    · simp only [pending, change_nsp]
      exact h.known
  · cases hstep

theorem Inv.step {a : Action} (h : Inv callable nsp s) (hstep : step callable s a = some s') :
    Inv callable nsp s' := by
  cases a with
  | change change => exact h.change hstep
  | dispatch event data ackId => exact h.dispatch hstep
  | callNamed i throws =>
    simp only [Events.step] at hstep
    split at hstep
    · cases hstep
    · rename_i d hd
      obtain ⟨hnamed, hany, hcalls⟩ := h.sound d (List.mem_of_getElem? hd)
      split at hstep
      · rename_i hpc
        rw [hpc] at hcalls
        split at hstep
        · rename_i hnone
          cases hstep
          refine h.setDispatch hd ⟨hnamed, hany, ?_⟩ rfl rfl rfl
          show d.calls = d.namedCall.toList
          rw [hnone, hcalls]
          rfl
        · rename_i call hcall
          cases hstep
          refine h.setDispatch hd ⟨hnamed, hany, ?_⟩ rfl rfl rfl
          have hnew : d.calls ++ [call] = d.namedCall.toList := by
            rw [hcall, hcalls]
            rfl
          cases throws with
          | true => exact hnew
          | false => exact hnew
      · cases hstep
  | callAny i =>
    simp only [Events.step] at hstep
    split at hstep
    · cases hstep
    · rename_i d hd
      obtain ⟨hnamed, hany, hcalls⟩ := h.sound d (List.mem_of_getElem? hd)
      split at hstep
      · rename_i hpc
        rw [hpc] at hcalls
        cases hstep
        refine h.setDispatch hd ⟨hnamed, hany, ?_⟩ rfl rfl rfl
        show d.calls ++ d.anyCall.toList = d.namedCall.toList ++ d.anyCall.toList
        rw [hcalls]
        rfl
      · cases hstep
  | acknowledge i reply =>
    simp only [Events.step] at hstep
    split at hstep
    · cases hstep
    · rename_i d hd
      split at hstep
      · rename_i hout
        cases hstep
        by_cases hsent : d.sent = true
        · exact h.acknowledge_again hd hsent
        · exact h.acknowledge_first hd hout (Bool.not_eq_true _ ▸ hsent)
      · cases hstep
  | sendAck j =>
    cases hr : s.replying[j]? with
    | none => simp [Events.step, hr] at hstep
    | some r => exact h.sendAck hr hstep
  | releaseSocket =>
    simp only [Events.step] at hstep
    split at hstep
    · cases hstep
      exact h.moved rfl rfl rfl (List.Subperm.refl _) fun halive => by simp [alive] at halive
    · cases hstep
  | releaseClient =>
    cases hstep
    exact h.moved rfl rfl rfl (List.Subperm.refl _) fun halive => by simp [alive] at halive

/-! ## The theorem -/

/-- The calls of one dispatch. -/
structure Dispatch.Reaches (callable : Nat → Bool) (d : Dispatch) : Prop where
  /-- At most one call for the name, and then at most one of the catch-all. -/
  slots : (d.calls.map Call.slot).Sublist [.named d.event, .any]
  /-- Each listener is the last one registered for its slot and not removed
  since. -/
  isCall : ∀ c ∈ d.calls, d.IsCall callable c
  /-- A dispatch that has returned has called all there are. -/
  complete : d.pc = .returned → ∀ slot ∈ [Slot.named d.event, .any], ∀ listener,
    Current d.changes slot listener → callable listener.number = true →
      ∃ c ∈ d.calls, c.slot = slot ∧ c.listener = listener

theorem Dispatch.Sound.reaches (h : d.Sound callable) : d.Reaches callable := by
  refine ⟨h.slots, fun c hc => h.isCall hc, fun hpc slot hslot listener hcurrent hcall => ?_⟩
  have hcalls : d.calls = d.namedCall.toList ++ d.anyCall.toList := by
    rw [h.calls, hpc]
    rfl
  rw [List.mem_cons, List.mem_singleton] at hslot
  rcases hslot with rfl | rfl
  · obtain ⟨c, hc, hrest⟩ := h.named.call_of_current hcurrent hcall
    exact ⟨c, by rw [hcalls]; exact List.mem_append_left _ (Option.mem_toList.mpr hc), hrest⟩
  · obtain ⟨c, hc, hrest⟩ := h.any.call_of_current hcurrent hcall
    exact ⟨c, by rw [hcalls]; exact List.mem_append_right _ (Option.mem_toList.mpr hc), hrest⟩

structure Lawful (callable : Nat → Bool) (nsp : Bytes) (s : Events) : Prop where
  oneKind : ∀ event, ¬ (event ∈ s.sock.listeners ∧ event ∈ s.sock.ackListeners)
  oneAnyKind : ¬ (s.sock.anyListener.isSome ∧ s.sock.anyAckListener.isSome)
  reaches : ∀ d ∈ s.dispatches, d.Reaches callable
  /-- No ACK packet without a dispatch. -/
  known : ∀ a ∈ s.acks, a.dispatch < s.dispatches.length
  /-- Nobody is answered more than once, or with another reply than the
  first. -/
  atMostOnce : ∀ i d, s.dispatches[i]? = some d →
    s.acksOf i = [] ∨ s.acksOf i = d.answer nsp i
  /-- The first call of the reply function sends the one ACK packet, or is
  in `send_ack` to do so. -/
  first : s.socketAlive = true → s.clientAlive = true → ∀ i d, s.dispatches[i]? = some d →
    0 ≤ d.ackId → s.acksOf i ++ s.pendingOf i = d.answer nsp i
  /-- An event that asks for no acknowledgement gets none. -/
  unasked : ∀ i d, s.dispatches[i]? = some d → d.ackId < 0 →
    d.replies = [] ∧ s.acksOf i = [] ∧ s.pendingOf i = []

theorem Dispatch.answer_cases (d : Dispatch) (nsp : Bytes) (i : Nat) :
    d.answer nsp i = [] ∨ ∃ a, d.answer nsp i = [a] := by
  unfold Dispatch.answer
  split
  · exact .inl rfl
  · exact .inr ⟨_, rfl⟩

theorem answers_split (s : Events) (i : Nat) : s.answers i = s.acksOf i ++ s.pendingOf i :=
  List.filter_append _ _

/-- A front part of the only answer is nothing or that answer. -/
theorem Inv.acksOf_eq {i : Nat} (h : Inv callable nsp s) (hd : s.dispatches[i]? = some d) :
    s.acksOf i = [] ∨ s.acksOf i = d.answer nsp i := by
  have hmost := h.nsp ▸ (h.answered i d hd).atMost
  have hacks : (s.acksOf i).Subperm (s.answers i) := by
    rw [answers_split]
    exact (List.sublist_append_left _ _).subperm
  obtain ⟨l, hl, hsub⟩ := hacks.trans hmost
  rcases d.answer_cases nsp i with hnone | ⟨a, hone⟩
  · rw [hnone, List.sublist_nil] at hsub
    subst hsub
    exact .inl (List.nil_perm.mp hl)
  · rw [hone] at hsub ⊢
    rcases List.sublist_singleton.mp hsub with rfl | rfl
    · exact .inl (List.nil_perm.mp hl)
    · exact .inr (List.singleton_perm.mp hl).symm

theorem Inv.answers_eq {i : Nat} (h : Inv callable nsp s) (halive : s.alive = true)
    (hd : s.dispatches[i]? = some d) : s.acksOf i ++ s.pendingOf i = d.answer nsp i := by
  have hall := h.nsp ▸ (h.answered i d hd).all halive
  rw [← answers_split]
  rcases d.answer_cases nsp i with hnone | ⟨a, hone⟩
  · rw [hnone] at hall ⊢
    exact List.perm_nil.mp hall
  · rw [hone] at hall ⊢
    exact List.perm_singleton.mp hall

theorem Inv.unasked {i : Nat} (h : Inv callable nsp s) (hd : s.dispatches[i]? = some d)
    (hneg : d.ackId < 0) : d.replies = [] ∧ s.acksOf i = [] ∧ s.pendingOf i = [] := by
  obtain ⟨hmost, -, -, hasked⟩ := h.answered i d hd
  have hreplies : d.replies = [] := by
    by_contra hne
    have := hasked hne
    omega
  have hnone : s.answers i = [] := by
    simpa [Dispatch.answer, hreplies] using hmost
  rw [answers_split, List.append_eq_nil_iff] at hnone
  exact ⟨hreplies, hnone⟩

/-- **One acknowledgement for an event.** After any history of
registrations, dispatches and calls of the reply functions, in any
interleaving: each slot has one listener, of one kind; a dispatch calls
the listeners that were current, the event's before the catch-all; and it
is acknowledged by the first call of its reply function, once. -/
theorem acknowledgedOnce {as : List Action} (h : run (step callable) (init nsp) as = some s) :
    Lawful callable nsp s := by
  have hinv : Inv callable nsp s :=
    run_preserves (Inv callable nsp) (fun _ _ _ hi hs => hi.step hs) (inv_init nsp) h
  refine ⟨hinv.registered.exclusive, hinv.registered.exclusiveAny, fun d hd => ?_, fun a ha => ?_,
    fun i d hd => hinv.acksOf_eq hd, fun hsocket hclient i d hd _ => ?_,
    fun i d hd hneg => hinv.unasked hd hneg⟩
  · exact (hinv.sound d hd).reaches
  · exact hinv.known a (List.mem_append_left _ ha)
  · exact hinv.answers_eq (by rw [alive, hsocket, hclient]; rfl) hd

/-- Two listeners share the reply function of an event; both reply, and
the plain listener registered first is not called. -/
def sharedReply : List Action :=
  [.change (.on (ascii "question") (.plain 1)), .change (.on (ascii "question") (.ack 2)),
    .change (.onAny (.ack 3)), .dispatch (ascii "question") (.arr []) 7, .callNamed 0 false,
    .callAny 0, .acknowledge 0 (.bool true), .acknowledge 0 .null, .sendAck 0]

theorem acknowledgedOnce_sharedReply :
    ∃ s, run (step fun _ => true) (init (ascii "/chat")) sharedReply = some s ∧
      Lawful (fun _ => true) (ascii "/chat") s ∧
      s.acks.map (·.packet) =
        [{ type := .ack, nsp := ascii "/chat", id := 7, data := .arr [.bool true] }] := by
  have hrun : run (step fun _ => true) (init (ascii "/chat")) sharedReply = some _ := rfl
  exact ⟨_, hrun, acknowledgedOnce hrun, rfl⟩

end Events

end Sioxx
