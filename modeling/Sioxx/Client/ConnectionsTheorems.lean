/-
Sioxx.Client.ConnectionsTheorems — what belongs to which connection.

Two laws of a client whose connection is replaced.

* A socket that reports connected was acknowledged over the installed
  connection (`Belongs`), and what it emits goes into a connection on which
  its namespace is connected (`SentWhereConnected`). `ensure_engineio` does
  not reset the sockets, so this fails when a connection is installed while
  a socket is connected, as by a second `connect` without `close`; it fails
  when an acknowledgement let in before a replacement takes effect after
  it; and it fails when the socket goes down, or the connection is
  replaced, between the test in `emit` and the write of a frame.
  `belongs_iff`: it holds all along a run exactly if none of this happens.
* A dispatched packet was received over one connection (`Whole`). The
  parser keeps a pending header across connections, so a binary frame of
  the next connection can complete it. `whole_of_continued`: it holds
  along every run in which a binary frame only continues a header of its
  own connection.
-/
import Sioxx.Client.Connections
import Sioxx.Parser.JsonParserTheorems
import Sioxx.Parser.StreamTheorems
import Sioxx.Json.ReferenceMsgpack

namespace Sioxx

open Lib

namespace Connections

/-! ## Sockets and the installed connection -/

section Owner

variable {P : Type} {decode : P → Frame → Option RawPacket × P}

/-- A connected socket was acknowledged over the installed connection,
the one `send_packet` writes to. -/
def Belongs (m : Connections P) : Prop :=
  ∀ s ∈ m.sockets, s.connected = true → ∃ conn, m.current = some conn ∧ s.ackedOver = some conn

/-- What a connected socket emitted went into a connection on which its
namespace was connected. -/
def SentWhereConnected (m : Connections P) : Prop :=
  ∀ e ∈ m.emissions, e.connectedOn = some e.into

/-- A connection is installed while no socket is connected; a CONNECT
acknowledgement makes a socket connected while its connection is installed;
and a frame is written while its socket is connected and the connection
that `send_packet` read is installed. -/
def KeepsOwner (m : Connections P) : Action → Prop
  | .connectInstall | .workerInstall | .fallbackInstall =>
    m.intentionalClose = false → ∀ s ∈ m.sockets, s.connected = false
  | .frameDispatch i => ∀ conn sources packet nsp,
    m.inFlight[i]? = some (.packet conn sources packet) →
    m.called packet = some (.markConnected nsp true) →
    (∃ s ∈ m.sockets, s.nsp = nsp ∧ s.connected = false) → m.current = some conn
  | .writeFrame => ∀ nsp conn, m.sending = some (nsp, conn) →
    m.Reports nsp ∧ m.current = some conn
  | _ => True

/-- Connection numbers are given out in order. -/
def Numbered (m : Connections P) : Prop := ∀ conn, m.current = some conn → conn < m.installed

theorem install_numbered {m : Connections P} (hm : m.Numbered) : m.install.Numbered := by
  unfold install
  split
  · exact hm
  · intro conn hconn
    cases hconn
    exact Nat.lt_succ_self _

theorem install_belongs {m : Connections P} (hm : m.Numbered) (hb : m.Belongs) :
    m.install.Belongs ↔ (m.intentionalClose = false → ∀ s ∈ m.sockets, s.connected = false) := by
  unfold install
  cases hclose : m.intentionalClose with
  | true => simpa using hb
  | false =>
    simp only [Bool.false_eq_true, if_false, forall_const]
    constructor
    · intro hnew s hs
      rw [Bool.eq_false_iff]
      intro hc
      obtain ⟨old, hold, hacked⟩ := hb s hs hc
      obtain ⟨conn, hconn, hacked'⟩ := hnew s hs hc
      have hlt := hm old hold
      rw [hacked] at hacked'
      cases hconn
      cases hacked'
      exact Nat.lt_irrefl _ hlt
    · intro hdown s hs hc
      rw [hdown s hs] at hc
      cases hc

theorem install_emissions (m : Connections P) : m.install.emissions = m.emissions := by
  unfold install
  split <;> rfl

/-- Putting sockets down keeps the law. -/
theorem Belongs.down {m m' : Connections P} (hb : m.Belongs) (hcurrent : m'.current = m.current)
    (hsockets : ∀ s ∈ m'.sockets, s.connected = true → s ∈ m.sockets) : m'.Belongs := by
  intro s hs hc
  rw [hcurrent]
  exact hb s (hsockets s hs hc) hc

theorem mem_mark {sockets : List NamespaceSocket} {nsp : Bytes} {conn : Nat}
    {s : NamespaceSocket} (h : s ∈ mark sockets nsp true conn) :
    s ∈ sockets ∨
      ((∃ t ∈ sockets, t.nsp = nsp ∧ t.connected = false) ∧ s.ackedOver = some conn) := by
  obtain ⟨t, ht, rfl⟩ := List.mem_map.mp h
  by_cases hnsp : t.nsp = nsp
  · rw [if_pos hnsp, if_pos rfl]
    unfold NamespaceSocket.up
    cases hc : t.connected with
    | true => exact .inl ht
    | false => exact .inr ⟨⟨t, ht, hnsp, hc⟩, rfl⟩
  · rw [if_neg hnsp]
    exact .inl ht

theorem mem_mark_down {sockets : List NamespaceSocket} {nsp : Bytes} {conn : Nat}
    {s : NamespaceSocket} (h : s ∈ mark sockets nsp false conn) (hc : s.connected = true) :
    s ∈ sockets := by
  obtain ⟨t, ht, rfl⟩ := List.mem_map.mp h
  by_cases hnsp : t.nsp = nsp
  · rw [if_pos hnsp, if_neg (by simp)] at hc
    cases hc
  · rw [if_neg hnsp]
    exact ht

/-- A packet keeps the law unless it acknowledges over a connection that
has been replaced. -/
theorem dispatch_belongs {m : Connections P} (hb : m.Belongs) (conn : Nat) (sources : List Nat)
    (packet : RawPacket) :
    (m.dispatch conn sources packet).Belongs ↔
      ∀ nsp, m.called packet = some (.markConnected nsp true) →
        (∃ s ∈ m.sockets, s.nsp = nsp ∧ s.connected = false) → m.current = some conn := by
  unfold dispatch
  split
  · rename_i hnone
    exact iff_of_true hb fun nsp h => by simp [hnone] at h
  · rename_i nsp connected hcall
    cases connected with
    | false =>
      refine iff_of_true ?_ fun nsp' h => by simp [hcall] at h
      exact hb.down rfl fun s hs hc => mem_mark_down hs hc
    | true =>
      constructor
      · -- the socket that becomes connected shows where it was acknowledged
        intro hnew nsp' hcall'
        cases hcall.symm.trans hcall'
        rintro ⟨s, hs, hnsp, hdown⟩
        have hmarked : { s with connected := true, ackedOver := some conn } ∈
            mark m.sockets nsp true conn :=
          List.mem_map.mpr ⟨s, hs, by simp [hnsp, NamespaceSocket.up, hdown]⟩
        obtain ⟨c, hcurrent, hacked⟩ := hnew _ hmarked rfl
        cases hacked
        exact hcurrent
      · intro hcurrent s hs hc
        rcases mem_mark hs with hmem | ⟨hdown, hacked⟩
        · exact hb s hmem hc
        · exact ⟨conn, hcurrent nsp hcall hdown, hacked⟩
  · rename_i d hother hcall
    refine iff_of_true hb fun nsp h => ?_
    rw [hcall] at h
    exact absurd (Option.some.inj h) (hother nsp true)

theorem dispatch_current (m : Connections P) (conn : Nat) (sources : List Nat)
    (packet : RawPacket) :
    (m.dispatch conn sources packet).current = m.current ∧
      (m.dispatch conn sources packet).installed = m.installed ∧
      (m.dispatch conn sources packet).emissions = m.emissions := by
  unfold dispatch
  split <;> exact ⟨rfl, rfl, rfl⟩

theorem decodeFrame_frame (m : Connections P) (i conn : Nat) (frame : Frame) :
    (m.decodeFrame decode i conn frame).sockets = m.sockets ∧
      (m.decodeFrame decode i conn frame).current = m.current ∧
      (m.decodeFrame decode i conn frame).installed = m.installed ∧
      (m.decodeFrame decode i conn frame).emissions = m.emissions := by
  unfold decodeFrame
  simp only
  split <;> exact ⟨rfl, rfl, rfl, rfl⟩

/-- Under the law a socket that reports connected is connected over the
installed connection. -/
theorem connectedOver_iff {m : Connections P} (hb : m.Belongs) (nsp : Bytes) (conn : Nat) :
    m.connectedOver nsp = some conn ↔ m.Reports nsp ∧ m.current = some conn := by
  unfold connectedOver
  cases hfind : m.sockets.find? fun s => decide (s.nsp = nsp) && s.connected with
  | none =>
    refine iff_of_false (by simp) ?_
    rintro ⟨⟨s, hs, hnsp, hc⟩, -⟩
    have hnone := List.find?_eq_none.mp hfind s hs
    simp [hnsp, hc] at hnone
  | some s =>
    have hs := List.mem_of_find?_eq_some hfind
    have hfound := List.find?_some hfind
    simp only [Bool.and_eq_true, decide_eq_true_eq] at hfound
    obtain ⟨c, hcurrent, hacked⟩ := hb s hs hfound.2
    have hreports : m.Reports nsp := ⟨s, hs, hfound⟩
    simp [hcurrent, hacked, hreports]

/-- A frame is written as the law wants exactly while its socket is connected
over the connection it goes into. -/
theorem writeFrame_sent {m : Connections P} (hb : m.Belongs) (hsent : m.SentWhereConnected)
    (nsp : Bytes) (conn : Nat) :
    (m.writeFrame nsp conn).SentWhereConnected ↔ m.Reports nsp ∧ m.current = some conn := by
  rw [← connectedOver_iff hb]
  constructor
  · intro hnew
    exact hnew ⟨nsp, conn, m.connectedOver nsp⟩ (List.mem_append_right _ (by simp))
  · intro hover e he
    rcases List.mem_append.mp he with he | he
    · exact hsent e he
    · rw [List.mem_singleton.mp he]
      exact hover

/-- What a step does to the sockets, the installed connection and what is
written. -/
theorem step_belongs {m m' : Connections P} {a : Action} (hm : m.Numbered) (hb : m.Belongs)
    (hsent : m.SentWhereConnected) (h : step decode m a = some m') :
    m'.Numbered ∧ (m'.Belongs ∧ m'.SentWhereConnected ↔ m.KeepsOwner a) := by
  have hquiet : ∀ {m' : Connections P}, m'.current = m.current → m'.installed = m.installed →
      m'.emissions = m.emissions → (∀ s ∈ m'.sockets, s.connected = true → s ∈ m.sockets) →
      m'.Numbered ∧ (m'.Belongs ∧ m'.SentWhereConnected ↔ True) := by
    intro m' hcurrent hinstalled hemissions hsockets
    refine ⟨?_, iff_true_intro ⟨hb.down hcurrent hsockets, by
      rw [SentWhereConnected, hemissions]; exact hsent⟩⟩
    intro conn hconn
    rw [hinstalled]
    exact hm conn (hcurrent ▸ hconn)
  cases a with
  | connect | close =>
    cases h
    exact hquiet rfl rfl rfl fun _ hs _ => hs
  | connectInstall | workerInstall | fallbackInstall =>
    simp only [step] at h
    split at h
    · cases h
    · cases h
      refine ⟨install_numbered hm, Iff.trans ?_ (install_belongs hm hb)⟩
      exact and_iff_left (by rw [SentWhereConnected, install_emissions]; exact hsent)
  | socket nsp =>
    simp only [step] at h
    split at h
    · cases h
      exact hquiet rfl rfl rfl fun _ hs _ => hs
    · cases h
      refine hquiet rfl rfl rfl fun s hs hc => ?_
      rcases List.mem_append.mp hs with hs | hs
      · exact hs
      · rw [List.mem_singleton.mp hs] at hc
        cases hc
  | disconnect nsp =>
    cases h
    refine hquiet rfl rfl rfl fun s hs hc => ?_
    obtain ⟨t, ht, rfl⟩ := List.mem_map.mp hs
    split at hc
    · cases hc
    · rename_i hnsp
      rw [if_neg hnsp]
      exact ht
  | closeMark i =>
    simp only [step] at h
    split at h
    · cases h
      refine hquiet rfl rfl rfl fun s hs hc => ?_
      obtain ⟨t, -, rfl⟩ := List.mem_map.mp hs
      cases hc
    · cases h
  | closeArrive conn | errorArrive conn | frameArrive conn frame =>
    simp only [step] at h
    split at h
    · cases h
      exact hquiet rfl rfl rfl fun _ hs _ => hs
    · cases h
  | closeSchedule i schedules =>
    simp only [step] at h
    split at h
    · cases h
      exact hquiet rfl rfl rfl fun _ hs _ => hs
    · cases h
  | errorFallBack i =>
    simp only [step] at h
    split at h
    · split at h <;>
      · cases h
        exact hquiet rfl rfl rfl fun _ hs _ => hs
    · cases h
  | frameDecode i =>
    simp only [step] at h
    split at h
    · rename_i conn frame _
      cases h
      obtain ⟨hsockets, hcurrent, hinstalled, hemissions⟩ := decodeFrame_frame m i conn frame
      exact hquiet hcurrent hinstalled hemissions fun _ hs _ => hsockets ▸ hs
    · cases h
  | frameDispatch i =>
    simp only [step] at h
    split at h
    · rename_i conn sources packet hi
      cases h
      obtain ⟨hcurrent, hinstalled, hemissions⟩ := dispatch_current m conn sources packet
      constructor
      · intro c hc
        simp only [hcurrent] at hc
        simp only [hinstalled]
        exact hm c hc
      · refine (and_iff_left (by rw [SentWhereConnected, hemissions]; exact hsent)).trans ?_
        rw [show Belongs { m.dispatch conn sources packet with inFlight := m.inFlight.eraseIdx i }
          ↔ (m.dispatch conn sources packet).Belongs from Iff.rfl, dispatch_belongs hb]
        simp only [KeepsOwner, hi]
        constructor
        · intro hown c src p nsp heq hcall
          cases heq
          exact hown nsp hcall
        · intro hown nsp hcall
          exact hown conn sources packet nsp rfl hcall
    · cases h
  | emit nsp =>
    simp only [step] at h
    split at h
    · cases h
      exact hquiet rfl rfl rfl fun _ hs _ => hs
    · cases h
  | sendPacket i =>
    simp only [step] at h
    split at h
    · cases h
      exact hquiet rfl rfl rfl fun _ hs _ => hs
    · cases h
  | writeFrame =>
    simp only [step] at h
    split at h
    · rename_i nsp conn hsending
      cases h
      refine ⟨hm, (and_iff_right hb).trans ((writeFrame_sent hb hsent nsp conn).trans ?_)⟩
      simp [KeepsOwner, hsending]
    · cases h
  | sendReturn =>
    simp only [step] at h
    split at h
    · cases h
      exact hquiet rfl rfl rfl fun _ hs _ => hs
    · cases h

/-- **When connection state belongs to the current connection.** All along
a run, a socket that reports connected was acknowledged over the installed
connection and emits into connections on which its namespace is connected,
exactly if connections are installed only while no socket is connected, an
acknowledgement makes a socket connected only while its connection is
installed, and each frame is written while its socket is connected and the
connection it goes into is installed. -/
theorem belongs_iff (decode : P → Frame → Option RawPacket × P) (parser : P) (force : Bool)
    {as : List Action} {m : Connections P}
    (h : run (step decode) { parser, forceHttpPolling := force } as = some m) :
    (∀ k m, run (step decode) { parser, forceHttpPolling := force } (as.take k) = some m →
      m.Belongs ∧ m.SentWhereConnected) ↔
      Meets (step decode) KeepsOwner { parser, forceHttpPolling := force } as := by
  have hinv : ∀ m a m', Numbered m → Belongs m ∧ SentWhereConnected m →
      step decode m a = some m' → Numbered m' :=
    fun m a m' hm hlaw hstep => (step_belongs hm hlaw.1 hlaw.2 hstep).1
  refine meets_iff_forall_states hinv
    (fun m a m' hm hlaw hstep => (step_belongs hm hlaw.1 hlaw.2 hstep).2) as _ m ?_ ⟨?_, ?_⟩ h
  · intro conn hconn
    cases hconn
  · intro s hs
    cases hs
  · intro e he
    cases he

end Owner

/-- The library's parsers over the reference texts. -/
def referenceRead : ClientParser → Frame → Option RawPacket × ClientParser :=
  ClientParser.read ReferenceText.referenceText ReferenceMsgpack.referenceMsgpack

/-- The root namespace is acknowledged and emits; its connection closes and
the worker installs the next one. -/
def reconnected : List Action :=
  [.connect, .connectInstall, .socket (ascii "/"), .frameArrive 0 ⟨ascii "0", false⟩,
   .frameDecode 0, .frameDispatch 0, .emit (ascii "/"), .sendPacket 0, .writeFrame,
   .sendReturn, .closeArrive 0, .closeMark 0, .closeSchedule 0 true, .workerInstall]

theorem belongs_iff_reconnected :
    ∃ m, run (step referenceRead) { parser := .json {}, forceHttpPolling := false } reconnected
        = some m ∧ m.current = some 1 ∧ m.emissions = [⟨ascii "/", 0, some 0⟩] ∧
      ((∀ k m, run (step referenceRead) { parser := .json {}, forceHttpPolling := false }
          (reconnected.take k) = some m → m.Belongs ∧ m.SentWhereConnected) ↔
        Meets (step referenceRead) KeepsOwner { parser := .json {}, forceHttpPolling := false }
          reconnected) :=
  ⟨_, rfl, rfl, rfl, belongs_iff referenceRead (.json {}) false rfl⟩

/-- The same namespace, a second `connect` without `close`, and an emit. -/
def connectedTwice : List Action :=
  [.connect, .connectInstall, .socket (ascii "/"), .frameArrive 0 ⟨ascii "0", false⟩,
   .frameDecode 0, .frameDispatch 0, .connect, .connectInstall, .emit (ascii "/"),
   .sendPacket 0, .writeFrame]

/-- The socket reports connected although nothing came over the installed
connection, and what it emits goes into that connection. -/
theorem connectedTwice_not_belongs :
    ∃ m, run (step referenceRead) { parser := .json {} } connectedTwice = some m ∧
      m.current = some 1 ∧ m.sockets.map (fun s => (s.connected, s.ackedOver)) = [(true, some 0)] ∧
      m.emissions = [⟨ascii "/", 1, some 0⟩] ∧ ¬ m.Belongs ∧ ¬ m.SentWhereConnected := by
  refine ⟨_, rfl, rfl, rfl, rfl, fun hb => ?_, fun hsent => ?_⟩
  · obtain ⟨conn, hcurrent, hacked⟩ :=
      hb ⟨ascii "/", true, some 0⟩ (List.mem_singleton.mpr rfl) rfl
    cases hacked
    cases hcurrent
  · have hover := hsent ⟨ascii "/", 1, some 0⟩ (List.mem_singleton.mpr rfl)
    simp at hover

/-! ## Packets and the connections of their frames -/

section Sources

variable {T : JsonText} {M : Msgpack}

/-- The header and the attachments came over one connection. -/
def OneConnection (sources : List Nat) (packet : RawPacket) : Prop :=
  ∃ conn, sources = List.replicate (packet.attachments + 1) conn

def Whole {P : Type} (m : Connections P) : Prop :=
  ∀ d ∈ m.dispatched, OneConnection d.1 d.2

/-- A header waits for attachments. -/
def headerPending (m : Connections ClientParser) : Bool :=
  match m.parser with
  | .json parser => parser.pendingBinaryPacket.isSome
  | .msgpack => false

/-- A binary frame that is decoded while a header waits for attachments
came over the header's connection. -/
def Continued (m : Connections ClientParser) : Action → Prop
  | .frameDecode i => ∀ conn frame, m.inFlight[i]? = some (.frame conn frame) →
    frame.isBinary = true → m.headerPending = true → ∀ source ∈ m.pendingFrom, source = conn
  | _ => True

/-- The frames of the pending header and of every packet decoded so far
came over one connection each. -/
structure Sourced (m : Connections ClientParser) : Prop where
  parser : ∃ parser, m.parser = .json parser ∧ parser.Waiting ∧
    (parser.pendingBinaryPacket.isSome = true →
      ∃ conn, m.pendingFrom = List.replicate (parser.pendingAttachments.length + 1) conn)
  inFlight : ∀ conn sources packet, .packet conn sources packet ∈ m.inFlight →
    OneConnection sources packet
  dispatched : m.Whole

/-- The connections of the frames decoded since the last text frame. -/
def sourcesWith (m : Connections ClientParser) (conn : Nat) (isBinary : Bool) : List Nat :=
  if isBinary then m.pendingFrom ++ [conn] else [conn]

theorem decodeFrame_json {m : Connections ClientParser} {parser : JsonParser}
    (hparser : m.parser = .json parser) {frame : Frame} {d : Decoded}
    (hd : JsonParser.decode T parser frame.payload frame.isBinary {} = .ok d) (i conn : Nat) :
    m.decodeFrame (ClientParser.read T M) i conn frame =
      if d.complete then
        { m with parser := .json d.parser, pendingFrom := [],
                 inFlight := m.inFlight.set i
                   (.packet conn (m.sourcesWith conn frame.isBinary) (.ofPacket d.out)) }
      else
        { m with parser := .json d.parser, pendingFrom := m.sourcesWith conn frame.isBinary,
                 inFlight := m.inFlight.eraseIdx i } := by
  unfold decodeFrame
  simp only [hparser, ClientParser.read, ClientParser.decode, hd]
  cases d.complete <;> rfl

/-- Decoding a frame that completes no packet. -/
theorem Sourced.waits {m m' : Connections ClientParser} (hm : m.Sourced) {parser : JsonParser}
    {i : Nat} (hparser : m'.parser = .json parser) (hw : parser.Waiting)
    (hfrom : parser.pendingBinaryPacket.isSome = true →
      ∃ conn, m'.pendingFrom = List.replicate (parser.pendingAttachments.length + 1) conn)
    (hflight : m'.inFlight = m.inFlight.eraseIdx i) (hdispatched : m'.dispatched = m.dispatched) :
    m'.Sourced where
  parser := ⟨parser, hparser, hw, hfrom⟩
  inFlight conn sources packet h := by
    rw [hflight] at h
    exact hm.inFlight conn sources packet (List.mem_of_mem_eraseIdx h)
  dispatched := by
    rw [Whole, hdispatched]
    exact hm.dispatched

/-- Decoding the last frame of a packet. -/
theorem Sourced.completes {m m' : Connections ClientParser} (hm : m.Sourced) {i conn : Nat}
    {sources : List Nat} {packet : RawPacket} (hparser : m'.parser = .json {})
    (hflight : m'.inFlight = m.inFlight.set i (.packet conn sources packet))
    (hone : OneConnection sources packet) (hdispatched : m'.dispatched = m.dispatched) :
    m'.Sourced where
  parser := ⟨{}, hparser, JsonParser.waiting_idle, fun h => by cases h⟩
  inFlight c src p h := by
    rw [hflight] at h
    rcases List.mem_or_eq_of_mem_set h with h | h
    · exact hm.inFlight c src p h
    · cases h
      exact hone
  dispatched := by
    rw [Whole, hdispatched]
    exact hm.dispatched

theorem decodeFrame_sourced {m : Connections ClientParser} (hm : m.Sourced) {i conn : Nat}
    {frame : Frame} (hcontinued : frame.isBinary = true → m.headerPending = true →
      ∀ source ∈ m.pendingFrom, source = conn) :
    (m.decodeFrame (ClientParser.read T M) i conn frame).Sourced := by
  obtain ⟨parser, hparser, hw, hfrom⟩ := hm.parser
  obtain ⟨d, hd, hdecodes⟩ := JsonParser.decode_decodes T hw frame.payload frame.isBinary
  -- with a header pending, all its frames so far came over this connection
  have hsources : frame.isBinary = true → parser.pendingBinaryPacket.isSome = true →
      m.pendingFrom = List.replicate (parser.pendingAttachments.length + 1) conn := by
    intro hbinary hpending
    obtain ⟨c, hc⟩ := hfrom hpending
    have hsame : c = conn :=
      hcontinued hbinary (by rw [headerPending, hparser]; exact hpending) c
        (by rw [hc]; exact List.mem_replicate.mpr ⟨by omega, rfl⟩)
    rw [hc, hsame]
  have hwaiting := hdecodes.waiting hw
  rw [decodeFrame_json hparser hd]
  unfold sourcesWith
  generalize frame.isBinary = isBinary at hdecodes hsources ⊢
  cases hdecodes with
  | plain hzero =>
    refine hm.completes rfl rfl ⟨conn, ?_⟩ rfl
    simp only [RawPacket.ofPacket, hzero]
    rfl
  | header hp => exact hm.waits rfl hwaiting (fun _ => ⟨conn, rfl⟩) rfl rfl
  | malformed => exact hm.waits rfl hwaiting (fun h => by cases h) rfl rfl
  | surplus hnone => exact hm.waits rfl hwaiting (fun h => by simp [hnone] at h) rfl rfl
  | attachment hpending hmore =>
    refine hm.waits rfl hwaiting (fun _ => ⟨conn, ?_⟩) rfl rfl
    simp only [if_true]
    rw [hsources rfl (by simp [hpending]), List.length_append, List.length_singleton]
    exact List.replicate_succ'.symm
  | @last p hpending hlast =>
    refine hm.completes rfl rfl ⟨conn, ?_⟩ rfl
    simp only [RawPacket.ofPacket, if_true]
    rw [hsources rfl (by simp [hpending]), hlast]
    exact List.replicate_succ'.symm

theorem step_sourced (m : Connections ClientParser) (a : Action) (m' : Connections ClientParser)
    (hm : m.Sourced) (hC : m.Continued a) (h : step (ClientParser.read T M) m a = some m') :
    m'.Sourced := by
  have hquiet : ∀ {m' : Connections ClientParser}, m'.parser = m.parser →
      m'.pendingFrom = m.pendingFrom → m'.dispatched = m.dispatched →
      (∀ conn sources packet, .packet conn sources packet ∈ m'.inFlight →
        .packet conn sources packet ∈ m.inFlight) → m'.Sourced := by
    intro m' hparser hfrom hdispatched hflight
    refine ⟨?_, fun conn sources packet h => ?_, ?_⟩
    · rw [hparser, hfrom]
      exact hm.parser
    · exact hm.inFlight conn sources packet (hflight conn sources packet h)
    · rw [Whole, hdispatched]
      exact hm.dispatched
  have hinstall : m.install.parser = m.parser ∧ m.install.pendingFrom = m.pendingFrom ∧
      m.install.dispatched = m.dispatched ∧ m.install.inFlight = m.inFlight := by
    unfold install
    split <;> exact ⟨rfl, rfl, rfl, rfl⟩
  have harrive : ∀ {delivery : Delivery}, (∀ conn sources packet,
      delivery ≠ .packet conn sources packet) → ∀ conn sources packet,
      .packet conn sources packet ∈ m.inFlight ++ [delivery] →
        .packet conn sources packet ∈ m.inFlight := by
    intro delivery hother conn sources packet hmem
    rcases List.mem_append.mp hmem with hmem | hmem
    · exact hmem
    · exact absurd (List.mem_singleton.mp hmem).symm (hother conn sources packet)
  cases a with
  | connect | close =>
    cases h
    exact hquiet rfl rfl rfl fun _ _ _ h => h
  | connectInstall | workerInstall | fallbackInstall =>
    simp only [step] at h
    split at h
    · cases h
    · cases h
      obtain ⟨hparser, hfrom, hdispatched, hflight⟩ := hinstall
      exact hquiet hparser hfrom hdispatched fun _ _ _ h => hflight ▸ h
  | socket nsp =>
    simp only [step] at h
    split at h <;>
    · cases h
      exact hquiet rfl rfl rfl fun _ _ _ h => h
  | disconnect nsp =>
    cases h
    exact hquiet rfl rfl rfl fun _ _ _ h => h
  | closeArrive conn | errorArrive conn | frameArrive conn frame =>
    simp only [step] at h
    split at h
    · cases h
      exact hquiet rfl rfl rfl (harrive (by simp))
    · cases h
  | closeMark i =>
    simp only [step] at h
    split at h
    · cases h
      refine hquiet rfl rfl rfl fun conn sources packet hmem => ?_
      rcases List.mem_or_eq_of_mem_set hmem with hmem | hmem
      · exact hmem
      · cases hmem
    · cases h
  | closeSchedule i schedules =>
    simp only [step] at h
    split at h
    · cases h
      exact hquiet rfl rfl rfl fun _ _ _ h => List.mem_of_mem_eraseIdx h
    · cases h
  | errorFallBack i =>
    simp only [step] at h
    split at h
    · split at h <;>
      · cases h
        exact hquiet rfl rfl rfl fun _ _ _ h => List.mem_of_mem_eraseIdx h
    · cases h
  | frameDecode i =>
    simp only [step] at h
    split at h
    · rename_i conn frame hi
      cases h
      exact decodeFrame_sourced hm (hC conn frame hi)
    · cases h
  | frameDispatch i =>
    simp only [step] at h
    split at h
    · rename_i conn sources packet hi
      cases h
      have hone := hm.inFlight conn sources packet (List.mem_of_getElem? hi)
      have hframe : (m.dispatch conn sources packet).parser = m.parser ∧
          (m.dispatch conn sources packet).pendingFrom = m.pendingFrom ∧
          ∀ d ∈ (m.dispatch conn sources packet).dispatched,
            d ∈ m.dispatched ∨ d = (sources, packet) := by
        unfold dispatch
        split
        · exact ⟨rfl, rfl, fun _ hd => .inl hd⟩
        · simp
        · simp
      refine ⟨?_, fun c src p hmem => ?_, fun d hd => ?_⟩
      · simp only [hframe.1, hframe.2.1]
        exact hm.parser
      · exact hm.inFlight c src p (List.mem_of_mem_eraseIdx hmem)
      · rcases hframe.2.2 d hd with hd | rfl
        · exact hm.dispatched d hd
        · exact hone
    · cases h
  | emit nsp =>
    simp only [step] at h
    split at h
    · cases h
      exact hquiet rfl rfl rfl fun _ _ _ h => h
    · cases h
  | sendPacket i | writeFrame | sendReturn =>
    simp only [step] at h
    split at h
    · cases h
      exact hquiet rfl rfl rfl fun _ _ _ h => h
    · cases h

/-- **When packets are whole.** Along every run of a client with the JSON
parser in which a binary frame only continues a header of its own
connection, every packet dispatched was decoded from a header and
attachments received over one connection. -/
theorem whole_of_continued (T : JsonText) (M : Msgpack) (force : Bool) {as : List Action}
    {m : Connections ClientParser}
    (h : run (step (ClientParser.read T M)) { parser := .json {}, forceHttpPolling := force } as
      = some m)
    (hC : Meets (step (ClientParser.read T M)) Continued
      { parser := .json {}, forceHttpPolling := force } as) : m.Whole := by
  refine (run_invariant step_sourced as _ m ?_ hC h).dispatched
  refine ⟨⟨{}, rfl, JsonParser.waiting_idle, fun hno => by cases hno⟩, ?_, ?_⟩
  · intro conn sources packet hmem
    cases hmem
  · intro d hd
    cases hd

end Sources

/-- The two frames of an acknowledgement with an attachment. -/
def chatHeader : Frame :=
  ⟨ascii "61-/chat,12[\"ok\",\x7b\"_placeholder\":true,\"num\":0\x7d]", false⟩

def chatAttachment : Frame := ⟨[0xAA, 0xBB], true⟩

/-- The header as the parser keeps it. -/
def pendingChat : Packet :=
  { JsonParser.received JsonParser.binaryAckPacket with
    data := (JsonParser.deconstructBinary JsonParser.binaryAckPacket.data []).1 }

theorem read_chatHeader : referenceRead (.json {}) chatHeader
    = (none, .json ⟨some pendingChat, []⟩) := by
  obtain ⟨text, hencode, hheader⟩ := JsonParser.encode_frames ReferenceText.referenceText_lawful
    JsonParser.binaryAckPacket_encodable.writable (by decide)
  have hwritten : JsonParser.encode ReferenceText.referenceText JsonParser.binaryAckPacket
      = .ok [chatHeader, chatAttachment] := rfl
  rw [hwritten] at hencode
  have htext : text = chatHeader.payload := by
    simp only [Except.ok.injEq, List.cons.injEq] at hencode
    exact (congrArg Frame.payload hencode.1).symm
  subst htext
  have hdecode : JsonParser.decode ReferenceText.referenceText {} chatHeader.payload false {}
      = .ok ⟨false, {}, ⟨some pendingChat, []⟩⟩ := by
    simp only [JsonParser.decode, JsonParser.decodeText, hheader]
    rfl
  have hplain : chatHeader.isBinary = false := rfl
  simp only [referenceRead, ClientParser.read, ClientParser.decode, hplain, hdecode]
  rfl

/-- Both frames over one connection. -/
def wholePacket : List Action :=
  [.connect, .connectInstall, .socket (ascii "/chat"), .frameArrive 0 chatHeader] ++
    (.frameDecode 0 :: [.frameArrive 0 chatAttachment, .frameDecode 0, .frameDispatch 0])

/-- The state in which the header is decoded. -/
def headerArrived : Connections ClientParser where
  parser := .json {}
  installed := 1
  current := some 0
  sockets := [{ nsp := ascii "/chat" }]
  inFlight := [.frame 0 chatHeader]

theorem headerArrived_decode : step referenceRead headerArrived (.frameDecode 0)
    = some { headerArrived with
        parser := .json ⟨some pendingChat, []⟩, pendingFrom := [0], inFlight := [] } := by
  simp only [step, headerArrived, List.getElem?_cons_zero, decodeFrame, read_chatHeader]
  rfl

theorem wholePacket_run :
    run (step referenceRead) { parser := .json {}, forceHttpPolling := false } wholePacket
      = some { headerArrived with
          inFlight := []
          dispatched := [([0, 0], .ofPacket (JsonParser.received JsonParser.binaryAckPacket))] } :=
  run_append rfl (run_cons_iff.mpr ⟨_, headerArrived_decode, rfl⟩)

theorem whole_of_continued_wholePacket :
    Whole { headerArrived with
      inFlight := []
      dispatched := [([0, 0], .ofPacket (JsonParser.received JsonParser.binaryAckPacket))] } := by
  refine whole_of_continued ReferenceText.referenceText ReferenceMsgpack.referenceMsgpack false
    wholePacket_run ?_
  refine (meets_cons_iff rfl).mpr ⟨trivial, (meets_cons_iff rfl).mpr ⟨trivial,
    (meets_cons_iff rfl).mpr ⟨trivial, (meets_cons_iff rfl).mpr ⟨trivial,
    (meets_cons_iff headerArrived_decode).mpr ⟨?_, (meets_cons_iff rfl).mpr ⟨trivial,
    (meets_cons_iff rfl).mpr ⟨?_, (meets_cons_iff rfl).mpr ⟨trivial, trivial⟩⟩⟩⟩⟩⟩⟩⟩
  · intro conn frame hframe hbinary
    cases hframe
    cases hbinary
  · intro conn frame hframe _ _ source hsource
    cases hframe
    exact List.mem_singleton.mp hsource

/-- The connection drops between the header and its attachment, and the
first frame of the next connection is binary. -/
def droppedBetweenFrames : List Action :=
  [.connect, .connectInstall, .socket (ascii "/chat"), .frameArrive 0 chatHeader] ++
    (.frameDecode 0 ::
      [.closeArrive 0, .closeMark 0, .closeSchedule 0 true, .workerInstall,
       .frameArrive 1 chatAttachment, .frameDecode 0, .frameDispatch 0])

/-- The packet dispatched has its header from one connection and its
attachment from the other. -/
theorem droppedBetweenFrames_mixed :
    ∃ m, run (step referenceRead) { parser := .json {} } droppedBetweenFrames = some m ∧
      m.dispatched.map (·.1) = [[0, 1]] ∧ ¬ m.Whole := by
  refine ⟨_, run_append rfl (run_cons_iff.mpr ⟨_, headerArrived_decode, rfl⟩), rfl,
    fun hwhole => ?_⟩
  obtain ⟨conn, hsources⟩ := hwhole _ (List.mem_singleton.mpr rfl)
  have hsame : ∀ source ∈ [0, 1], source = conn := by
    intro source hsource
    exact List.eq_of_mem_replicate (by rw [← hsources]; exact hsource)
  have hzero := hsame 0 (by simp)
  have hone := hsame 1 (by simp)
  omega

end Connections

end Sioxx
