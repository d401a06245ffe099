import SN110.Artnet.Receive
import SN110.Lib.Run

/-!
# ArtPolls

`artnet_receive` over the datagrams that reach its socket. One length test stands in front of both
kinds of message, and its bound is the header of an ArtDmx: a run answers its polls and only these,
and delivers what it would without them, exactly when every poll is as long as that header
(`artnetPolls_answered_iff`).
-/

namespace SN110

open Memory Run

abbrev artnetOpPollReply : UInt16 := 0x2100

/-- The length of an ArtPoll in the Art-Net 4 specification. -/
abbrev artPollLen : Nat := 14

/-- A datagram and where it came from. -/
structure ArtnetDatagram where
  sender : SockAddrIn
  payload : List UInt8

/-- An ArtPoll, of any length from its own on. -/
structure IsArtPoll (payload : List UInt8) : Prop where
  long : artPollLen ≤ payload.length
  magic : artnetMagicMatches payload = true
  opcode : load16Le payload offArtOpcode = artnetOpPoll

instance (payload : List UInt8) : Decidable (IsArtPoll payload) :=
  decidable_of_iff (artPollLen ≤ payload.length ∧ artnetMagicMatches payload = true ∧
      load16Le payload offArtOpcode = artnetOpPoll)
    ⟨fun h => ⟨h.1, h.2.1, h.2.2⟩, fun h => ⟨h.long, h.magic, h.opcode⟩⟩

/-- An ArtPollReply. -/
structure IsArtPollReply (payload : List UInt8) : Prop where
  length : payload.length = 239
  magic : artnetMagicMatches payload = true
  opcode : load16Le payload offArtOpcode = artnetOpPollReply

/-! ## A run of the receiver -/

/-- A call of `artnet_receive` that reads the datagram `d`. -/
def artnetReceiveFrom (pkt : ArtnetDmxPacket) (d : ArtnetDatagram) :
    Int × ArtnetDmxPacket × Option Sent :=
  artnetReceive (.datagram artnetBufLen d.payload) d.sender pkt

/-- One datagram: the packet as the call leaves it, and what the call did. -/
def artnetStep (pkt : ArtnetDmxPacket) (d : ArtnetDatagram) :
    ArtnetDmxPacket × List (Int × ArtnetDmxPacket × Option Sent) :=
  ((artnetReceiveFrom pkt d).2.1, [artnetReceiveFrom pkt d])

/-- The packet that a call delivers: `handle_artnet_packet` runs on a return of 0. -/
def artDmxOf (call : Int × ArtnetDmxPacket × Option Sent) : Option ArtnetDmxPacket :=
  if call.1 = 0 then some call.2.1 else none

/-- The ArtDmx packets a run delivers. -/
def artDmxDelivered (pkt : ArtnetDmxPacket) (ds : List ArtnetDatagram) : List ArtnetDmxPacket :=
  (trace artnetStep pkt ds).filterMap artDmxOf

/-- One reply to the address the poll came from, a return of -1, and the packet untouched. -/
def AnswersPoll (pkt : ArtnetDmxPacket) (d : ArtnetDatagram) : Prop :=
  ∃ reply : Sent, artnetReceiveFrom pkt d = (-1, pkt, some reply) ∧
    reply.dest.addr = d.sender.addr ∧ IsArtPollReply reply.payload

/-- Polls are answered and disturb nothing. -/
structure PollsAnswered (pkt : ArtnetDmxPacket) (ds : List ArtnetDatagram) : Prop where
  answered : Along artnetStep (fun pkt d => IsArtPoll d.payload → AnswersPoll pkt d) pkt ds
  silent : Along artnetStep
    (fun pkt d => ¬ IsArtPoll d.payload → (artnetReceiveFrom pkt d).2.2 = none) pkt ds
  delivered : artDmxDelivered pkt ds
    = artDmxDelivered pkt (ds.filter fun d => !decide (IsArtPoll d.payload))

/-! ## What one datagram does -/

/-- The first bytes of the reply: the magic and, behind it, the opcode. -/
theorem load_artnetPollReply {i : Nat} (hi : i < 8) :
    load (artnetPollReply 0 none) i = load artnetMagic i := by
  have hmagic : artnetMagic.length = 8 := rfl
  simp (disch := omega) only [artnetPollReply, store8, load_store_before]
  rw [load_store_self (Nat.zero_le i) (by omega) (by rw [List.length_replicate]; omega),
    Nat.sub_zero]

theorem opcode_artnetPollReply :
    load16Le (artnetPollReply 0 none) offArtOpcode = artnetOpPollReply := by
  have hlo : load (artnetPollReply 0 none) offArtOpcode = 0x00 := by
    simp (disch := decide) only [artnetPollReply, store8, load_store_before]
    rw [load_store_self (le_refl _) (by decide)
      (by simp only [length_store, List.length_replicate]; decide)]
    rfl
  have hhi : load (artnetPollReply 0 none) (offArtOpcode + 1) = 0x21 := by
    simp (disch := decide) only [artnetPollReply, store8, load_store_before]
    rw [load_store_self (le_refl _) (by decide)
      (by simp only [length_store, List.length_replicate]; decide)]
    rfl
  rw [load16Le, hlo, hhi]
  rfl

/-- The reply names itself. -/
theorem artnetPollReply_isArtPollReply : IsArtPollReply (artnetPollReply 0 none) where
  length := by simp only [artnetPollReply, store8, length_store, List.length_replicate]
  magic := by
    refine List.all_eq_true.mpr fun i hi => ?_
    rw [Nat.zero_add, load_artnetPollReply (List.mem_range.mp hi), beq_self_eq_true]
  opcode := opcode_artnetPollReply

/-- The buffer holds the whole header. -/
theorem load_datagram {i : Nat} (hi : i < artnetBufLen) (payload : List UInt8) :
    load (Received.datagram artnetBufLen payload).buf i = load payload i := by
  show (payload.take artnetBufLen).getD i 0 = payload.getD i 0
  rw [List.getD_eq_getElem?_getD, List.getD_eq_getElem?_getD, List.getElem?_take_of_lt hi]

theorem artnetMagicMatches_datagram (payload : List UInt8) :
    artnetMagicMatches (Received.datagram artnetBufLen payload).buf
      = artnetMagicMatches payload := by
  unfold artnetMagicMatches
  rw [Bool.eq_iff_iff, List.all_eq_true, List.all_eq_true]
  refine forall₂_congr fun i hi => ?_
  have hlt : i < 8 := List.mem_range.mp hi
  rw [load_datagram (by simp only [artnetBufLen]; omega)]

theorem artnetOpcode_datagram (payload : List UInt8) :
    load16Le (Received.datagram artnetBufLen payload).buf offArtOpcode
      = load16Le payload offArtOpcode := by
  unfold load16Le
  rw [load_datagram (by decide), load_datagram (by decide)]

/-- The length test lets a datagram through by its own length. -/
theorem count_datagram_lt (payload : List UInt8) :
    (Received.datagram artnetBufLen payload).count < artnetMinDmxLen
      ↔ payload.length < artnetMinDmxLen := by
  show ((payload.take artnetBufLen).length : Int) < (artnetMinDmxLen : Nat) ↔ _
  rw [List.length_take, Int.ofNat_lt]
  simp only [artnetBufLen, artnetMinDmxLen]
  omega

variable {pkt : ArtnetDmxPacket} {d : ArtnetDatagram}

/-- A datagram shorter than the header of an ArtDmx is dropped, whatever it is. -/
theorem artnetReceiveFrom_short (h : d.payload.length < artnetMinDmxLen) :
    artnetReceiveFrom pkt d = (-1, pkt, none) := by
  unfold artnetReceiveFrom artnetReceive
  rw [if_pos ((count_datagram_lt d.payload).mpr h)]

/-- A poll behind the length test. -/
theorem artnetReceiveFrom_poll (h : IsArtPoll d.payload)
    (hlong : artnetMinDmxLen ≤ d.payload.length) :
    artnetReceiveFrom pkt d = (-1, pkt,
      some { dest := { d.sender with port := artnetPort }
             payload := artnetPollReply 0 none }) := by
  unfold artnetReceiveFrom artnetReceive
  rw [if_neg (fun hlt => absurd ((count_datagram_lt d.payload).mp hlt) (Nat.not_lt.mpr hlong)),
    artnetMagicMatches_datagram, if_neg (by rw [h.magic]; decide), artnetOpcode_datagram,
    if_pos h.opcode]

/-- A poll changes nothing and delivers nothing, answered or not. -/
theorem artnetReceiveFrom_of_poll (h : IsArtPoll d.payload) :
    (artnetReceiveFrom pkt d).1 = -1 ∧ (artnetReceiveFrom pkt d).2.1 = pkt := by
  by_cases hlong : artnetMinDmxLen ≤ d.payload.length
  · rw [artnetReceiveFrom_poll h hlong]
    exact ⟨rfl, rfl⟩
  · rw [artnetReceiveFrom_short (Nat.not_le.mp hlong)]
    exact ⟨rfl, rfl⟩

/-- Only a poll is answered. -/
theorem artnetReceiveFrom_silent (h : ¬ IsArtPoll d.payload) :
    (artnetReceiveFrom pkt d).2.2 = none := by
  by_cases hlong : d.payload.length < artnetMinDmxLen
  · rw [artnetReceiveFrom_short hlong]
  unfold artnetReceiveFrom artnetReceive
  rw [if_neg (fun hlt => hlong ((count_datagram_lt d.payload).mp hlt)),
    artnetMagicMatches_datagram, artnetOpcode_datagram]
  by_cases hmagic : artnetMagicMatches d.payload = false
  · rw [if_pos hmagic]
  rw [if_neg hmagic]
  -- behind the magic, only the opcode could still make it a poll
  have hopcode : load16Le d.payload offArtOpcode ≠ artnetOpPoll := fun hpoll => h {
    long := by
      simp only [artnetMinDmxLen] at hlong
      simp only [artPollLen]
      omega
    magic := by simpa using hmagic
    opcode := hpoll }
  rw [if_neg hopcode]
  by_cases hdmx : load16Le d.payload offArtOpcode ≠ artnetOpDmx
  · rw [if_pos hdmx]
  · rw [if_neg hdmx]

/-- **A poll is answered exactly when it is as long as the header of an ArtDmx.** -/
theorem answersPoll_iff (h : IsArtPoll d.payload) :
    AnswersPoll pkt d ↔ artnetMinDmxLen ≤ d.payload.length := by
  constructor
  · intro ⟨reply, hreply, _⟩
    by_contra hshort
    rw [artnetReceiveFrom_short (Nat.not_le.mp hshort)] at hreply
    cases congrArg (fun call : Int × ArtnetDmxPacket × Option Sent => call.2.2) hreply
  · intro hlong
    have hcall := @artnetReceiveFrom_poll pkt d h hlong
    have hpayload := artnetPollReply_isArtPollReply
    -- only what the reply is matters, not its bytes
    generalize artnetPollReply 0 none = payload at hcall hpayload
    exact ⟨_, hcall, rfl, hpayload⟩

/-! ## What a run does -/

/-- **Polls can be taken out of a run**: the deliveries stay the same. -/
theorem artDmxDelivered_erase (pkt : ArtnetDmxPacket) (ds : List ArtnetDatagram) :
    artDmxDelivered pkt ds
      = artDmxDelivered pkt (ds.filter fun d => !decide (IsArtPoll d.payload)) := by
  refine (trace_eq_of_erase artnetStep artDmxOf id _ ds pkt pkt ?_ ?_ rfl).2
  · intro d _ pkt pkt' h
    rw [show pkt = pkt' from h]
    exact ⟨rfl, rfl⟩
  · intro d _ hdrop pkt
    have hpoll : IsArtPoll d.payload := by simpa using hdrop
    obtain ⟨hreturn, hkept⟩ := @artnetReceiveFrom_of_poll pkt d hpoll
    refine ⟨hkept, ?_⟩
    show [artnetReceiveFrom pkt d].filterMap artDmxOf = []
    have hnone : artDmxOf (artnetReceiveFrom pkt d) = none := by
      unfold artDmxOf
      rw [hreturn, if_neg (by decide)]
    rw [List.filterMap_cons_none hnone, List.filterMap_nil]

/-- What holds of every call holds along a run, and nothing else is asked of the packet it meets. -/
theorem along_artnet {p : ArtnetDmxPacket → ArtnetDatagram → Prop} {q : ArtnetDatagram → Prop}
    (hpq : ∀ pkt d, p pkt d ↔ q d) (pkt : ArtnetDmxPacket) (ds : List ArtnetDatagram) :
    Along artnetStep p pkt ds ↔ ∀ d ∈ ds, q d := by
  induction ds generalizing pkt with
  | nil => exact iff_of_true trivial (fun d hd => absurd hd List.not_mem_nil)
  | cons d ds ih => rw [along_cons, ih, hpq, List.forall_mem_cons]

/-- **The polls of a run are answered, and only these, exactly when none is shorter than the header
of an ArtDmx.** -/
theorem artnetPolls_answered_iff (pkt : ArtnetDmxPacket) (ds : List ArtnetDatagram) :
    PollsAnswered pkt ds ↔
      ∀ d ∈ ds, IsArtPoll d.payload → artnetMinDmxLen ≤ d.payload.length := by
  have hanswered := along_artnet (p := fun pkt d => IsArtPoll d.payload → AnswersPoll pkt d)
    (fun _ _ => forall_congr' fun h => answersPoll_iff h) pkt ds
  constructor
  · intro h
    exact hanswered.mp h.answered
  · intro h
    exact {
      answered := hanswered.mpr h
      silent := (along_artnet (fun _ _ => iff_of_true artnetReceiveFrom_silent trivial) pkt ds).mpr
        fun _ _ => trivial
      delivered := artDmxDelivered_erase pkt ds }

/-- A poll of 14 bytes, as the specification has it. -/
def specPoll : List UInt8 := artnetMagic ++ [0x00, 0x20, 0, 14, 0, 0]

/-- A packet record nothing was received into. -/
def blankArtnetDmxPacket : ArtnetDmxPacket where
  sequence := 0
  physical := 0
  dmxUniverse := 0
  dmxData := Vector.replicate 512 0
  dmxLength := 0

/-- The poll of the specification gets no reply. -/
theorem specPoll_notAnswered :
    ¬ PollsAnswered blankArtnetDmxPacket
      [{ sender := { addr := 0x0100000A, port := artnetPort }, payload := specPoll }] := by
  intro h
  obtain ⟨reply, hreply, _⟩ := h.answered.1 (by decide)
  rw [artnetReceiveFrom_short (by decide)] at hreply
  cases congrArg (fun call : Int × ArtnetDmxPacket × Option Sent => call.2.2) hreply

end SN110
