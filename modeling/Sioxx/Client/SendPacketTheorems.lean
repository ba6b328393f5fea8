/-
Sioxx.Client.SendPacketTheorems — when the transport gets a prefix of every
packet.

That no packet comes between the frames of another follows from
`send_mutex_`. That the frames of a packet are a prefix of it holds as long
as the connection does not open in the middle: while it is open, what the
writer has handed over and what it has left make up the packet (`Law`), and
once it has dropped a frame, only an OPEN packet can let another one out.

`prefixBlocks_iff` gives the exact condition on the OPEN packets.
-/
import Sioxx.Lib.Blocks
import Sioxx.Client.SendPacket
import Sioxx.Json.ReferenceText

namespace Sioxx

open Lib

namespace SendPacket

/-! ## The law of the writer -/

variable {T : JsonText} {encode : Packet → Except EncodeError (List Frame)} {s s' : SendPacket}

/-- While the connection is open, the writer has lost nothing. -/
structure Law (encode : Packet → Except EncodeError (List Frame)) (s : SendPacket) : Prop where
  blocks : s.handed = (List.range s.begun.length).flatMap s.block
  isPrefix : ∀ call packet, s.begun[call]? = some packet →
    (s.block call).map Prod.snd <+: messages encode packet
  last : ∀ w, s.writer = some w → w.call + 1 = s.begun.length
  continues : s.engineio.sends = true → ∀ w, s.writer = some w → s.Continues encode w

theorem law_start (engineio : EngineIOClient) : Law encode { engineio } where
  blocks := rfl
  isPrefix := by
    intro call packet h
    simp at h
  last := by
    intro w h
    cases h
  continues := by
    intro _ w h
    cases h

/-- A non-empty block begins with the first frame. -/
theorem Law.prefixBlocks (h : Law encode s) : s.PrefixBlocks encode where
  blocks := h.blocks
  isPrefix := h.isPrefix
  header := by
    intro call packet sent hpacket hsent
    have hmem : (call, sent) ∈ s.block call := by
      simp [block, hsent]
    obtain ⟨tail, htail⟩ := h.isPrefix call packet hpacket
    cases hblock : s.block call with
    | nil =>
      rw [hblock] at hmem
      cases hmem
    | cons first others =>
      have hfirst : first ∈ s.block call := by
        rw [hblock]
        exact List.mem_cons_self
      simp only [block, List.mem_filter, decide_eq_true_eq] at hfirst
      rw [hblock, messages] at htail
      cases hencoded : encoded encode packet with
      | nil =>
        rw [hencoded] at htail
        cases htail
      | cons frame frames =>
        rw [hencoded, List.map_cons, List.map_cons, List.cons_append, List.cons.injEq] at htail
        refine ⟨frame, frames, rfl, ?_⟩
        rw [← htail.1, ← hfirst.2]
        exact hfirst.1

/-- A step that neither writes nor begins a packet. -/
theorem Law.quiet (h : Law encode s) (hbegun : s'.begun = s.begun) (hhanded : s'.handed = s.handed)
    (hwriter : ∀ w, s'.writer = some w → s.writer = some w)
    (hcontinues : s'.engineio.sends = true → ∀ w, s'.writer = some w → s.Continues encode w) :
    Law encode s' := by
  have hblock : s'.block = s.block := by
    funext call
    rw [block, block, hhanded]
  exact
    { blocks := by
        rw [hhanded, hbegun, hblock]
        exact h.blocks
      isPrefix := by
        rw [hbegun, hblock]
        exact h.isPrefix
      last := by
        intro w hw
        rw [hbegun]
        exact h.last w (hwriter w hw)
      continues := by
        intro hsends w hw
        rw [Continues, hbegun, hblock]
        exact hcontinues hsends w hw }

/-- A new packet begins with nothing handed over and all of it to write. -/
theorem Law.beginPacket (h : Law encode s) (i : Nat) (packet : Packet) :
    Law encode (SendPacket.beginPacket encode s i packet) := by
  have hnone : s.block s.begun.length = [] := filter_of_fresh fun x hx => lt_of_blocks h.blocks hx
  exact
    { blocks := by
        simp only [SendPacket.beginPacket, List.length_append, List.length_singleton]
        exact blocks_fresh h.blocks
      isPrefix := by
        intro call p hp
        simp only [SendPacket.beginPacket] at hp
        rcases Nat.lt_or_ge call s.begun.length with hlt | hge
        · rw [List.getElem?_append_left hlt] at hp
          exact h.isPrefix call p hp
        · have hcall : call = s.begun.length := by
            have hlt := (List.getElem?_eq_some_iff.mp hp).1
            rw [List.length_append, List.length_singleton] at hlt
            omega
          subst hcall
          change (s.block s.begun.length).map Prod.snd <+: messages encode p
          rw [hnone]
          exact List.nil_prefix
      last := by
        intro w hw
        simp only [SendPacket.beginPacket] at hw ⊢
        split at hw
        · cases hw
          rw [List.length_append, List.length_singleton]
        · cases hw
      continues := by
        intro _ w hw p hp
        simp only [SendPacket.beginPacket] at hw hp
        split at hw
        · rename_i frames hencode
          cases hw
          rw [List.getElem?_concat_length] at hp
          cases hp
          change (s.block s.begun.length).map Prod.snd ++ frames.map Frame.message
            <+: messages encode packet
          rw [hnone, messages, encoded, hencode]
          exact List.prefix_rfl
        · cases hw }

theorem block_writeFrame_same (s : SendPacket) (call : Nat) (frame : Frame) (rest : List Frame)
    (throws : Bool) : ((s.writeFrame call frame rest throws).block call).map Prod.snd
      = (s.block call).map Prod.snd ++ s.engineio.send frame.payload frame.isBinary := by
  have hsnd : (Prod.snd ∘ fun effect : Effect => (call, effect)) = id := rfl
  simp only [block, writeFrame]
  rw [filter_append_same, List.map_append, List.map_map, hsnd, List.map_id]

theorem block_writeFrame_other (s : SendPacket) {call k : Nat} (hk : k ≠ call) (frame : Frame)
    (rest : List Frame) (throws : Bool) :
    (s.writeFrame call frame rest throws).block k = s.block k := by
  simp only [block, writeFrame]
  exact filter_append_other hk _

/-- A frame that goes out is the next of its packet, as long as none was
lost; a frame that is dropped leaves the block as it is. -/
theorem Law.writeFrame (h : Law encode s) {call : Nat} {frame : Frame} {rest : List Frame}
    (hw : s.writer = some ⟨call, frame :: rest⟩) (throws : Bool) :
    Law encode (s.writeFrame call frame rest throws) := by
  have hlast : call + 1 = s.begun.length := h.last _ hw
  have hwriter : ∀ w, (s.writeFrame call frame rest throws).writer = some w → w = ⟨call, rest⟩ := by
    intro w hw'
    simp only [SendPacket.writeFrame] at hw'
    split at hw'
    · cases hw'
    · cases hw'
      rfl
  have hgrown : s.engineio.sends = true → ∀ packet, s.begun[call]? = some packet →
      ((s.writeFrame call frame rest throws).block call).map Prod.snd ++ rest.map Frame.message
        <+: messages encode packet := by
    intro hsends packet hpacket
    have hcontinues := h.continues hsends _ hw packet hpacket
    rw [block_writeFrame_same, EngineIOClient.send_eq, if_pos hsends, List.append_assoc]
    exact hcontinues
  exact
    { blocks := by
        have hblocks := h.blocks
        rw [← hlast] at hblocks
        change s.handed ++ (s.engineio.send frame.payload frame.isBinary).map (fun x => (call, x))
          = (List.range s.begun.length).flatMap _
        rw [← hlast]
        exact blocks_append hblocks _
      isPrefix := by
        intro k packet hpacket
        by_cases hk : k = call
        · subst hk
          cases hsends : s.engineio.sends with
          | true => exact (List.prefix_append _ _).trans (hgrown hsends packet hpacket)
          | false =>
            rw [block_writeFrame_same, EngineIOClient.send_eq, hsends]
            simpa using h.isPrefix k packet hpacket
        · rw [block_writeFrame_other s hk]
          exact h.isPrefix k packet hpacket
      last := by
        intro w hw'
        rw [hwriter w hw']
        exact hlast
      continues := by
        intro hsends w hw' packet hpacket
        rw [hwriter w hw'] at hpacket ⊢
        exact hgrown hsends packet hpacket }

theorem sends_openUrl {c : EngineIOClient} (h : c.openUrl.sends = true) : c.sends = true := by
  unfold EngineIOClient.openUrl at h
  split at h
  · exact h
  · simp [EngineIOClient.sends] at h

theorem sends_close {c : EngineIOClient} (h : c.close.sends = true) : c.sends = true := by
  unfold EngineIOClient.close at h
  split at h
  · exact h
  · simp [EngineIOClient.sends] at h

theorem step_law {a : Action} (h : Law encode s) (hC : s.OpensBetweenPackets T encode a)
    (hstep : step T encode s a = some s') : Law encode s' := by
  cases a with
  | call packet =>
    cases hstep
    exact h.quiet rfl rfl (fun _ hw => hw) h.continues
  | lock i =>
    simp only [step] at hstep
    split at hstep
    · cases hstep
      exact h.beginPacket i _
    · cases hstep
  | write throws =>
    simp only [step] at hstep
    split at hstep
    · rename_i hw
      cases hstep
      exact h.writeFrame hw throws
    · cases hstep
  | unlock =>
    simp only [step] at hstep
    split at hstep
    · cases hstep
      refine h.quiet rfl rfl ?_ ?_
      · intro w hw
        cases hw
      · intro _ w hw
        cases hw
    · cases hstep
  | event now event =>
    cases hstep
    refine h.quiet rfl rfl (fun _ hw => hw) fun hsends w hw => ?_
    cases hbefore : s.engineio.sends with
    | true => exact h.continues hbefore w hw
    | false => exact hC hbefore hsends w hw
  | openUrl =>
    cases hstep
    exact h.quiet rfl rfl (fun _ hw => hw) fun hsends => h.continues (sends_openUrl hsends)
  | close =>
    cases hstep
    exact h.quiet rfl rfl (fun _ hw => hw) fun hsends => h.continues (sends_close hsends)

/-! ## An OPEN packet in the middle -/

/-- On an open connection the writer hands over all it has left. -/
theorem run_writes (T : JsonText) (encode : Packet → Except EncodeError (List Frame))
    (rest : List Frame) (s : SendPacket) {call : Nat} (hsends : s.engineio.sends = true)
    (hw : s.writer = some ⟨call, rest⟩) :
    ∃ bs u, Meets (step T encode) (fun _ => Finishing) s bs ∧ run (step T encode) s bs = some u ∧
      u.begun = s.begun ∧
      (u.block call).map Prod.snd = (s.block call).map Prod.snd ++ rest.map Frame.message := by
  induction rest generalizing s with
  | nil => exact ⟨[], s, trivial, rfl, rfl, by simp⟩
  | cons frame rest ih =>
    have hstep : step T encode s (.write false) = some (s.writeFrame call frame rest false) := by
      simp only [step, hw]
    obtain ⟨bs, u, hmeets, hrun, hbegun, hblock⟩ :=
      ih (s.writeFrame call frame rest false) hsends (by simp [writeFrame])
    refine ⟨.write false :: bs, u, (meets_cons_iff hstep).mpr ⟨rfl, hmeets⟩,
      run_cons_iff.mpr ⟨_, hstep, hrun⟩, hbegun, ?_⟩
    rw [hblock, block_writeFrame_same, EngineIOClient.send_eq, if_pos hsends, List.append_assoc]
    rfl

theorem open_breaks {a : Action} (hC : ¬ s.OpensBetweenPackets T encode a)
    (hstep : step T encode s a = some s') :
    ∃ bs u, Meets (step T encode) (fun _ => Finishing) s' bs ∧
      run (step T encode) s' bs = some u ∧ ¬ u.PrefixBlocks encode := by
  cases a with
  | event now event =>
    simp only [OpensBetweenPackets, Continues, not_forall] at hC
    obtain ⟨_, hsends, w, hw, packet, hpacket, hlost⟩ := hC
    cases hstep
    obtain ⟨bs, u, hmeets, hrun, hbegun, hblock⟩ :=
      run_writes T encode w.rest
        { s with engineio := (s.engineio.handleEvent T now event).client } hsends hw
    refine ⟨bs, u, hmeets, hrun, fun hgood => hlost ?_⟩
    have hprefix := hgood.isPrefix w.call packet (hbegun ▸ hpacket)
    rw [hblock] at hprefix
    exact hprefix
  | call packet => exact absurd trivial hC
  | lock i => exact absurd trivial hC
  | write throws => exact absurd trivial hC
  | unlock => exact absurd trivial hC
  | openUrl => exact absurd trivial hC
  | close => exact absurd trivial hC

/-! ## Prefixes -/

/-- **Prefixes.** In every run, wherever it is stopped and the writer is
let finish, the transport has been handed one prefix of each packet after
the other — exactly if no OPEN packet opened the connection for the rest of
a packet that had lost a frame. -/
theorem prefixBlocks_iff (T : JsonText) (encode : Packet → Except EncodeError (List Frame))
    (engineio : EngineIOClient) {as : List Action} {t : SendPacket}
    (h : run (step T encode) { engineio } as = some t) :
    Meets (step T encode) (fun s => s.OpensBetweenPackets T encode) { engineio } as ↔
      ∀ k m bs u, run (step T encode) { engineio } (as.take k) = some m →
        Meets (step T encode) (fun _ => Finishing) m bs → run (step T encode) m bs = some u →
        u.PrefixBlocks encode := by
  refine meets_iff_completions (fun s a s' (hs : Law encode s) => step_law hs)
    (fun s hs => hs.prefixBlocks) ?_ (fun s a s' _ => open_breaks) as _ t (law_start engineio) h
  intro s a ha
  cases a with
  | event now event => exact ha.elim
  | call packet => exact ha.elim
  | lock i => exact ha.elim
  | write throws => trivial
  | unlock => trivial
  | openUrl => exact ha.elim
  | close => exact ha.elim

/-- An event with one attachment. -/
def picture : Packet where
  data := .arr [.str (ascii "p"), .binary [7] none]

def handshake : EngineIOClient.TransportEvent :=
  .message (ascii "0\x7b\"sid\":\"s\"\x7d") false

abbrev pictureStep : SendPacket → Action → Option SendPacket :=
  step ReferenceText.referenceText (JsonParser.encode ReferenceText.referenceText)

/-- A fresh connection after the handshake. -/
def opened : EngineIOClient where
  isOpen := true
  heartbeatStopRequested := false
  heartbeat := true
  sessionId := ascii "s"

theorem handshake_opens :
    (({} : EngineIOClient).handleEvent ReferenceText.referenceText 0 handshake).client
      = opened := by
  decide +kernel

theorem step_handshake {s : SendPacket} (h : s.engineio = {}) :
    pictureStep s (.event 0 handshake) = some { s with engineio := opened } := by
  simp only [pictureStep, step, h, handshake_opens]

/-- The packet goes out after the OPEN packet. -/
def openedBefore : List Action :=
  [.call picture, .event 0 handshake, .lock 0, .write false, .write false, .unlock]

theorem run_openedBefore :
    ∃ t, run pictureStep {} openedBefore = some t ∧ t.handed.length = 2 :=
  ⟨_, run_cons_iff.mpr ⟨_, rfl, run_cons_iff.mpr ⟨_, step_handshake rfl, rfl⟩⟩, rfl⟩

theorem prefixBlocks_iff_openedBefore :
    ∃ t, run pictureStep {} openedBefore = some t ∧ t.handed.length = 2 ∧
      (Meets pictureStep (fun s => s.OpensBetweenPackets ReferenceText.referenceText
          (JsonParser.encode ReferenceText.referenceText)) {} openedBefore ↔
        ∀ k m bs u, run pictureStep {} (openedBefore.take k) = some m →
          Meets pictureStep (fun _ => Finishing) m bs → run pictureStep m bs = some u →
          u.PrefixBlocks (JsonParser.encode ReferenceText.referenceText)) := by
  obtain ⟨t, hrun, hhanded⟩ := run_openedBefore
  exact ⟨t, hrun, hhanded, prefixBlocks_iff ReferenceText.referenceText
    (JsonParser.encode ReferenceText.referenceText) {} hrun⟩

/-- The OPEN packet comes between the two frames. -/
def openedBetween : List Action :=
  [.call picture, .lock 0, .write false] ++ .event 0 handshake :: [.write false]

/-- The attachment goes out alone: its header was dropped. -/
theorem openedBetween_headless :
    ∃ m, run pictureStep {} openedBetween = some m ∧
      m.handed = [(0, .transportSend [7] true)] ∧
      ¬ m.PrefixBlocks (JsonParser.encode ReferenceText.referenceText) := by
  have hdropped : run pictureStep {} [.call picture, .lock 0, .write false]
      = some { begun := [picture], writer := some ⟨0, [⟨[7], true⟩]⟩ } := rfl
  refine ⟨_, run_append hdropped (run_cons_iff.mpr ⟨_, step_handshake rfl, rfl⟩), rfl,
    fun hgood => ?_⟩
  obtain ⟨frame, rest, hencoded, hmem⟩ := hgood.header 0 picture (.transportSend [7] true) rfl
    (List.mem_singleton.mpr rfl)
  cases hencoded
  simp [writeFrame, Frame.message, EngineIOClient.send, opened] at hmem

end SendPacket

end Sioxx
