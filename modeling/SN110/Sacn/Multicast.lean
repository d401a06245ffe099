import SN110.Sacn.Packet
import SN110.Oabi.Socket

/-!
# The sACN socket and its multicast group (`sacn_multicast_addr`, `sacn_init`)

`sacn_init` joins the group of one universe and goes on without it when the join fails. The calls
whose results it does not look at are left out.
-/

namespace SN110

/-- `SACN_MULTICAST_BASE`: 239.255.0.0. -/
abbrev sacnMulticastBase : UInt32 := 0xEFFF0000

/-- `sacn_multicast_addr`: the group of a universe, in network byte order. -/
def sacnMulticastAddr (dmxUniverse : UInt16) : UInt32 :=
  htonl (sacnMulticastBase ||| dmxUniverse.toUInt32)

/-- Each universe has a group of its own. -/
theorem sacnMulticastAddr_injective {u v : UInt16}
    (h : sacnMulticastAddr u = sacnMulticastAddr v) : u = v := by
  -- the byte order can be turned back, and the low half of the address is the universe
  have hor : sacnMulticastBase ||| u.toUInt32 = sacnMulticastBase ||| v.toUInt32 := by
    rw [← htonl_htonl (sacnMulticastBase ||| u.toUInt32),
      ← htonl_htonl (sacnMulticastBase ||| v.toUInt32)]
    exact congrArg htonl h
  have hbase : sacnMulticastBase.toUInt16 = 0 := by decide
  have hlow : ∀ w : UInt16, (sacnMulticastBase ||| w.toUInt32).toUInt16 = w := by
    intro w
    rw [UInt32.toUInt16_or, hbase, UInt16.toUInt16_toUInt32, UInt16.zero_or]
  rw [← hlow u, hor, hlow v]

/-- What the kernel answers to the calls of `sacn_init`. -/
structure InitAnswers where
  socket : Int
  bind : Int
  join : Int

/-- No call fails. -/
def InitAnswers.Succeed (k : InitAnswers) : Prop := 0 ≤ k.socket ∧ 0 ≤ k.bind ∧ 0 ≤ k.join

instance InitAnswers.decidableSucceed (k : InitAnswers) : Decidable k.Succeed := by
  unfold InitAnswers.Succeed
  infer_instance

/-- `sacn_init`: the return value and the groups its socket has joined. -/
def sacnInit (dmxUniverse : UInt16) (k : InitAnswers) : Int × List UInt32 :=
  if k.socket < 0 then (-1, [])
  else if k.bind < 0 then (-1, [])
  else if k.join < 0 then (k.socket, [])
  else (k.socket, [sacnMulticastAddr dmxUniverse])

/-- When no call fails the socket is open and in the universe's group. -/
theorem sacnInit_of_succeed {dmxUniverse : UInt16} {k : InitAnswers} (h : k.Succeed) :
    sacnInit dmxUniverse k = (k.socket, [sacnMulticastAddr dmxUniverse]) := by
  obtain ⟨hsocket, hbind, hjoin⟩ := h
  rw [sacnInit, if_neg (not_lt.mpr hsocket), if_neg (not_lt.mpr hbind), if_neg (not_lt.mpr hjoin)]

/-- The one group the socket can be in is the universe's own, and then no call has failed. -/
theorem mem_groups_of_sacnInit {dmxUniverse : UInt16} {k : InitAnswers} {group : UInt32}
    (h : group ∈ (sacnInit dmxUniverse k).2) :
    k.Succeed ∧ group = sacnMulticastAddr dmxUniverse := by
  unfold sacnInit at h
  split_ifs at h with hsocket hbind hjoin
  · cases h
  · cases h
  · cases h
  · exact ⟨⟨not_lt.mp hsocket, not_lt.mp hbind, not_lt.mp hjoin⟩, List.mem_singleton.mp h⟩

end SN110
