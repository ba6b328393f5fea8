/-
Sioxx.Client.Opening — the CONNECT packets of a fresh Engine.IO session.

Two places send CONNECT. The transport thread that reads the OPEN packet
sets `open_` and then, in `on_engineio_open`, connects every socket of the
map under `sockets_mutex_`. An application thread in `client_impl::socket`
inserts a new socket under the same mutex and connects it at once if
`open_` is set. Between the store to `open_` and the section of the other
thread nothing is locked, so there are three actions: the store, the loop
over the sockets, and a whole call of `socket`, whose test of `open_` is
the moment the action happens.

A run starts without sockets: those requested before the OPEN packet come
from earlier calls of `socket` in it. The engine stays current meanwhile.

`parser_->encode` is a parameter. It may throw on an authentication
payload, which ends the call of `socket`, or the loop with the sockets
behind it not connected.
-/
import Mathlib.Data.List.Nodup
import Sioxx.Lib.Run
import Sioxx.Parser.JsonParser
import Sioxx.Json.ReferenceText

namespace Sioxx

open Lib

/-- The packet of `socket::connect`. -/
def connectPacket (nsp : Bytes) (auth : Json) : Packet where
  type := .connect
  nsp := nsp
  data := auth

/-- `nsp.empty() ? "/" : nsp` -/
def normNsp (nsp : Bytes) : Bytes := if nsp = [] then ascii "/" else nsp

/-- `sockets_[nsp] = sock` for a new key; the map is in key order, with
the authentication payload of each socket. -/
def insertSocket (nsp : Bytes) (auth : Json) : List (Bytes × Json) → List (Bytes × Json)
  | [] => [(nsp, auth)]
  | (n, a) :: rest =>
    if nsp < n then (nsp, auth) :: (n, a) :: rest else (n, a) :: insertSocket nsp auth rest

/-- `it->second->set_auth(auth)` -/
def setAuth (nsp : Bytes) (auth : Json) (sockets : List (Bytes × Json)) : List (Bytes × Json) :=
  sockets.map (fun s => if s.1 = nsp then (s.1, auth) else s)

structure Opening where
  sockets : List (Bytes × Json) := []
  isOpen : Bool := false
  /-- The loop of `on_engineio_open` has run. -/
  looped : Bool := false
  /-- The namespaces of the CONNECT packets handed to the connection. -/
  handed : List Bytes := []

namespace Opening

inductive Action where
  | setOpen
  | onEngineioOpen
  | socket (nsp : Bytes) (auth : Json)

section

variable (encode : Packet → Except EncodeError (List Frame))

/-- `sock->connect()` returns. -/
def connects (s : Bytes × Json) : Bool :=
  match encode (connectPacket s.1 s.2) with
  | .ok _ => true
  | .error _ => false

/-- The sockets the loop of `on_engineio_open` connects: an exception ends
it. -/
def reached (sockets : List (Bytes × Json)) : List Bytes :=
  (sockets.takeWhile (connects encode)).map (·.1)

/-- `client_impl::socket(nsp, auth)`. -/
def socketCall (m : Opening) (nsp : Bytes) (auth : Json) : Opening :=
  if nsp ∈ m.sockets.map (·.1) then
    if auth.isNull then m else { m with sockets := setAuth nsp auth m.sockets }
  else
    { m with
      sockets := insertSocket nsp auth m.sockets
      handed := if m.isOpen && connects encode (nsp, auth) then m.handed ++ [nsp] else m.handed }

def step (m : Opening) : Action → Option Opening
  | .setOpen => if m.isOpen then none else some { m with isOpen := true }
  | .onEngineioOpen =>
    if m.isOpen && !m.looped then
      some { m with looped := true, handed := m.handed ++ reached encode m.sockets }
    else none
  | .socket nsp auth => some (socketCall encode m (normNsp nsp) auth)

/-- Every requested namespace has been handed over once. -/
def OneConnect (m : Opening) : Prop :=
  ∀ nsp ∈ m.sockets.map (·.1), m.handed.count nsp = 1

/-- When the loop runs, it gets to exactly those sockets that their own
call of `socket` has not connected since `open_` was set; after the loop,
a new namespace comes with a payload that can be encoded. -/
def Fits (m : Opening) : Action → Prop
  | .setOpen => True
  | .onEngineioOpen => ∀ s ∈ m.sockets, (s.1 ∈ reached encode m.sockets ↔ s.1 ∉ m.handed)
  | .socket nsp auth =>
    m.looped = true → normNsp nsp ∉ m.sockets.map (·.1) → connects encode (normNsp nsp, auth) = true

/-! ## The map -/

theorem insertSocket_keys (nsp : Bytes) (auth : Json) (sockets : List (Bytes × Json)) :
    ((insertSocket nsp auth sockets).map (·.1)).Perm (nsp :: sockets.map (·.1)) := by
  induction sockets with
  | nil => exact List.Perm.refl _
  | cons s rest ih =>
    obtain ⟨n, a⟩ := s
    rw [insertSocket]
    split
    · exact List.Perm.refl _
    · exact (ih.cons n).trans (List.Perm.swap nsp n _)

theorem setAuth_keys (nsp : Bytes) (auth : Json) (sockets : List (Bytes × Json)) :
    (setAuth nsp auth sockets).map (·.1) = sockets.map (·.1) := by
  rw [setAuth, List.map_map]
  refine List.map_congr_left fun s _ => ?_
  simp only [Function.comp]
  split <;> rfl

theorem reached_sublist (sockets : List (Bytes × Json)) :
    (reached encode sockets).Sublist (sockets.map (·.1)) :=
  (List.takeWhile_sublist _).map _

/-! ## The steps -/

/-- The keys are distinct, a CONNECT is for a requested namespace, and
before the loop for a new one each time. -/
structure Sound (m : Opening) : Prop where
  keys : (m.sockets.map (·.1)).Nodup
  handed : ∀ nsp ∈ m.handed, nsp ∈ m.sockets.map (·.1)
  once : m.looped = false → m.handed.Nodup
  opened : m.looped = true → m.isOpen = true

theorem sound_init : Sound {} where
  keys := List.nodup_nil
  handed := by simp
  once _ := List.nodup_nil
  opened h := by cases h

theorem socketCall_sound {m : Opening} (hm : m.Sound) (nsp : Bytes) (auth : Json) :
    (socketCall encode m nsp auth).Sound := by
  unfold socketCall
  split
  · split
    · exact hm
    · exact ⟨by simpa only [setAuth_keys] using hm.keys,
        by simpa only [setAuth_keys] using hm.handed, hm.once, hm.opened⟩
  · rename_i hnew
    have hkeys := insertSocket_keys nsp auth m.sockets
    have hmem : ∀ n, n ∈ (insertSocket nsp auth m.sockets).map (·.1) ↔
        n = nsp ∨ n ∈ m.sockets.map (·.1) := by
      intro n
      rw [hkeys.mem_iff, List.mem_cons]
    refine ⟨hkeys.nodup_iff.mpr (List.nodup_cons.mpr ⟨hnew, hm.keys⟩), fun n hn => ?_,
      fun hloop => ?_, hm.opened⟩
    · rw [hmem]
      simp only at hn
      split at hn
      · rcases List.mem_append.mp hn with hn | hn
        · exact .inr (hm.handed n hn)
        · exact .inl (List.mem_singleton.mp hn)
      · exact .inr (hm.handed n hn)
    · have hfresh : nsp ∉ m.handed := fun h => hnew (hm.handed nsp h)
      simp only
      split
      · rw [← List.concat_eq_append]
        exact List.Nodup.concat hfresh (hm.once hloop)
      · exact hm.once hloop

theorem step_sound (m : Opening) (a : Action) (m' : Opening) (hm : m.Sound)
    (h : step encode m a = some m') : m'.Sound := by
  cases a with
  | setOpen =>
    simp only [step] at h
    split at h
    · cases h
    · cases h
      exact ⟨hm.keys, hm.handed, hm.once, fun _ => rfl⟩
  | onEngineioOpen =>
    simp only [step] at h
    split at h
    · rename_i hopen
      cases h
      refine ⟨hm.keys, fun n hn => ?_, (by simp), fun _ => ?_⟩
      · rcases List.mem_append.mp hn with hn | hn
        · exact hm.handed n hn
        · exact (reached_sublist encode m.sockets).mem hn
      · exact (Bool.and_eq_true_iff.mp hopen).1
    · cases h
  | socket nsp auth =>
    cases h
    exact socketCall_sound encode hm _ auth

/-- The loop connects once more each socket it gets to. -/
theorem loop_oneConnect {m : Opening} (hm : m.Sound) (hloop : m.looped = false) :
    OneConnect { m with looped := true, handed := m.handed ++ reached encode m.sockets } ↔
      m.Fits encode .onEngineioOpen := by
  have hreached : (reached encode m.sockets).Nodup :=
    hm.keys.sublist (reached_sublist encode m.sockets)
  have hcount : ∀ n, (m.handed ++ reached encode m.sockets).count n
      = (if n ∈ m.handed then 1 else 0) + (if n ∈ reached encode m.sockets then 1 else 0) := by
    intro n
    rw [List.count_append, (hm.once hloop).count, hreached.count]
  simp only [OneConnect, Fits, hcount, List.mem_map]
  constructor
  · intro hone s hs
    have h := hone s.1 ⟨s, hs, rfl⟩
    by_cases h1 : s.1 ∈ m.handed <;> by_cases h2 : s.1 ∈ reached encode m.sockets <;>
      simp_all
  · rintro hfits n ⟨s, hs, rfl⟩
    have h := hfits s hs
    by_cases h1 : s.1 ∈ m.handed <;> by_cases h2 : s.1 ∈ reached encode m.sockets <;>
      simp_all

/-- After the loop a new namespace gets its one CONNECT from its own call,
if the payload can be encoded. -/
theorem socketCall_oneConnect {m : Opening} (hm : m.Sound) (hloop : m.looped = true)
    (nsp : Bytes) (auth : Json) :
    OneConnect (socketCall encode m nsp auth) ↔
      OneConnect m ∧ (nsp ∉ m.sockets.map (·.1) → connects encode (nsp, auth) = true) := by
  unfold socketCall
  split
  · rename_i hold
    have hvacuous : (nsp ∉ m.sockets.map (·.1) → connects encode (nsp, auth) = true) ↔ True :=
      iff_true_intro fun h => absurd hold h
    rw [hvacuous, and_true]
    split
    · rfl
    · simp only [OneConnect, setAuth_keys]
  · rename_i hnew
    have hfresh : m.handed.count nsp = 0 :=
      List.count_eq_zero.mpr fun h => hnew (hm.handed nsp h)
    have hcount : ∀ n, n ∈ m.sockets.map (·.1) →
        (m.handed ++ [nsp]).count n = m.handed.count n := by
      intro n hn
      have hne : nsp ≠ n := by
        rintro rfl
        exact hnew hn
      rw [List.count_append, List.count_singleton, if_neg (by simpa using hne), Nat.add_zero]
    simp only [OneConnect, hm.opened hloop, Bool.true_and,
      (insertSocket_keys nsp auth m.sockets).mem_iff, List.forall_mem_cons]
    by_cases hc : connects encode (nsp, auth) = true
    · simp only [hc, if_true, List.count_append, List.count_singleton_self, hfresh, Nat.zero_add,
        true_and, implies_true, and_true]
      refine forall_congr' fun n => imp_congr_right fun hn => ?_
      rw [← List.count_append, hcount n hn]
    · have hzero : ¬ m.handed.count nsp = 1 := by omega
      simp [hc, hnew, hzero]

theorem step_oneConnect (m : Opening) (a : Action) (m' : Opening) (hm : m.Sound)
    (h : step encode m a = some m') :
    (m'.looped = true → m'.OneConnect) ↔ (m.looped = true → m.OneConnect) ∧ m.Fits encode a := by
  cases a with
  | setOpen =>
    simp only [step] at h
    split at h
    · cases h
    · cases h
      simp only [Fits, and_true]
      rfl
  | onEngineioOpen =>
    simp only [step] at h
    split at h
    · rename_i hopen
      have hloop : m.looped = false := by simpa using (Bool.and_eq_true_iff.mp hopen).2
      cases h
      simp only [hloop, Bool.false_eq_true, false_imp_iff, true_and, forall_const]
      exact loop_oneConnect encode hm hloop
    · cases h
  | socket nsp auth =>
    cases h
    have hlooped : (socketCall encode m (normNsp nsp) auth).looped = m.looped := by
      unfold socketCall
      split
      · split <;> rfl
      · rfl
    rw [hlooped]
    by_cases hloop : m.looped = true
    · simp only [hloop, forall_const, Fits]
      exact socketCall_oneConnect encode hm hloop _ auth
    · simp [Fits, hloop]

/-- **When each namespace gets one CONNECT.** In every interleaving of
calls of `socket` with the opening of a session, once the handler of the
OPEN packet has run, every namespace requested so far has been handed over
once exactly if the steps fit. -/
theorem oneConnect_iff {as : List Action} {m : Opening} (h : run (step encode) {} as = some m)
    (hloop : m.looped = true) : m.OneConnect ↔ Meets (step encode) (Fits encode) {} as := by
  have hexact := meets_iff_of_step (step_sound encode) (step_oneConnect encode) as {} m
    sound_init h
  have hstart : ({} : Opening).looped = true → OneConnect {} := by
    intro hno
    cases hno
  rw [← and_iff_right hstart (b := Meets (step encode) (Fits encode) {} as), ← hexact]
  simp only [hloop, forall_const]

/-- Two namespaces requested before the OPEN packet, one after it. -/
def requestedInTurn : List Action :=
  [.socket (ascii "/") .null, .socket (ascii "/a") .null, .setOpen, .onEngineioOpen,
   .socket (ascii "/b") .null]

theorem oneConnect_iff_requestedInTurn :
    ∃ m, run (step (JsonParser.encode ReferenceText.referenceText)) {} requestedInTurn = some m ∧
      m.looped = true ∧
      (m.OneConnect ↔ Meets (step (JsonParser.encode ReferenceText.referenceText))
        (Fits (JsonParser.encode ReferenceText.referenceText)) {} requestedInTurn) :=
  ⟨_, rfl, rfl, @oneConnect_iff (JsonParser.encode ReferenceText.referenceText) requestedInTurn _
    rfl rfl⟩

/-- A namespace requested between the store to `open_` and the loop. -/
def requestedInBetween : List Action :=
  [.socket (ascii "/") .null, .setOpen, .socket (ascii "/a") .null, .onEngineioOpen]

/-- It is connected by its own call and by the loop. -/
theorem requestedInBetween_twice :
    ∃ m, run (step (JsonParser.encode ReferenceText.referenceText)) {} requestedInBetween = some m ∧
      m.looped = true ∧ m.handed.count (ascii "/a") = 2 ∧ ¬ m.OneConnect := by
  refine ⟨_, rfl, rfl, rfl, fun hone => ?_⟩
  have htwo := hone (ascii "/a") (by decide)
  revert htwo
  decide

end

end Opening

end Sioxx
