import Toxcore.Data.ByteStrings

/-!
# Addresses

An `IP` is a family byte and a 16-byte union whose first four bytes are the IPv4 address; an
`IP_Port` adds the port. Both are compared in two ways in the source: by the functions below, which
look only at the bytes of the family, and as stored bytes, padding and unused bytes included, when
they are keys of a `BS_LIST`.
-/

namespace Toxcore

open ByteStrings

/-- `AF_INET`. -/
def afInet : UInt8 := 2

/-- `AF_INET6`. -/
def afInet6 : UInt8 := 10

/-- `TCP_FAMILY`, the family of a source that is a TCP relay. -/
def tcpFamily : UInt8 := afInet6 + 4

/-- An address: its family, the padding behind it, and the union of an IPv4 and an IPv6 address. -/
structure Ip where
  family : UInt8
  padding : Block 7
  bytes : Block 16
  deriving DecidableEq

/-- An address with a port, and the padding behind it. -/
structure IpPort where
  ip : Ip
  port : UInt16
  padding : Block 6
  deriving DecidableEq

/-- An address cleared to zero bytes. -/
def Ip.zero : Ip := ⟨0, List.Vector.replicate 7 0, List.Vector.replicate 16 0⟩

/-- An address and port cleared to zero bytes. -/
def IpPort.zero : IpPort := ⟨.zero, 0, List.Vector.replicate 6 0⟩

/-- The bytes an `IP_Port` occupies in memory. -/
def IpPort.stored (ipPort : IpPort) : Bytes :=
  ipPort.ip.family :: (ipPort.ip.padding.toList ++ (ipPort.ip.bytes.toList ++
    (beBytes 2 ipPort.port.toNat ++ ipPort.padding.toList)))

theorem IpPort.stored_length (ipPort : IpPort) : ipPort.stored.length = 32 := by
  simp [IpPort.stored]

/-- The stored bytes determine the address. -/
theorem IpPort.stored_injective : Function.Injective IpPort.stored := by
  rintro ⟨⟨family, padding, bytes⟩, port, rest⟩ ⟨⟨family', padding', bytes'⟩, port', rest'⟩ h
  simp only [IpPort.stored, List.cons.injEq] at h
  obtain ⟨hfamily, h⟩ := h
  obtain ⟨hpadding, h⟩ := List.append_inj h (by simp)
  obtain ⟨hbytes, h⟩ := List.append_inj h (by simp)
  obtain ⟨hport, hrest⟩ := List.append_inj h (by simp)
  have hport' := congrArg beNat hport
  rw [beNat_beBytes_of_lt port.toNat_lt, beNat_beBytes_of_lt port'.toNat_lt, UInt16.toNat_inj] at hport'
  rw [hfamily, hport', List.Vector.toList_injective hpadding, List.Vector.toList_injective hbytes,
    List.Vector.toList_injective hrest]

/-- Byte `i` of the union. -/
def Ip.byte (ip : Ip) (i : ℕ) : UInt8 := ip.bytes.toList.getD i 0

/-- The IPv4 address, the first four bytes of the union. -/
def Ip.ip4 (ip : Ip) : Block 4 := slice 4 ip.bytes.toList 0

/-- `IPV6_IPV4_IN_V6`: an IPv4 address embedded in an IPv6 one. -/
def ipv6Ipv4InV6 (ip : Ip) : Bool :=
  ip.bytes.toList.take 12 == [0, 0, 0, 0, 0, 0, 0, 0, 0, 0, 255, 255]

/-- The last four bytes of the union, where an embedded IPv4 address stands. -/
def Ip.embedded (ip : Ip) : Block 4 := slice 4 ip.bytes.toList 12

/-- The loopback test on the bytes of an IPv4 address. -/
def localIp4 (ip4 : Block 4) : Bool := ip4.toList.getD 0 0 == 127

/-- `Local_ip`. Every family other than `AF_INET` is read as IPv6. -/
def localIp (ip : Ip) : Bool :=
  if ip.family = afInet then localIp4 ip.ip4
  else if ipv6Ipv4InV6 ip then localIp4 ip.embedded
  else ip.bytes.toList == [0, 0, 0, 0, 0, 0, 0, 0, 0, 0, 0, 0, 0, 0, 0, 1]

/-- The private ranges of IPv4. -/
def lanIp4 (ip4 : Block 4) : Bool :=
  let byte i := ip4.toList.getD i 0
  byte 0 == 10 || (byte 0 == 172 && byte 1 ≥ 16 && byte 1 ≤ 31) || (byte 0 == 192 && byte 1 == 168) ||
    (byte 0 == 169 && byte 1 == 254 && byte 2 != 0 && byte 2 != 255) ||
    (byte 0 == 100 && (byte 1 &&& 0xC0) == 0x40)

/-- `LAN_ip`, true where the source returns 0. -/
def lanIp (ip : Ip) : Bool :=
  if localIp ip then true
  else if ip.family = afInet then lanIp4 ip.ip4
  else if ip.family = afInet6 then
    (ip.byte 0 == 0xFF && ip.byte 1 < 3 && ip.byte 15 == 1) ||
      (ip.byte 0 == 0xFE && (ip.byte 1 &&& 0xC0) == 0x80) ||
      (ipv6Ipv4InV6 ip && (localIp4 ip.embedded || lanIp4 ip.embedded))
  else false

/-- `ip_equal`: unset addresses are unequal, and an embedded IPv4 address equals the plain one. -/
def ipEqual (a b : Ip) : Bool :=
  if a.family = b.family then
    if a.family = afInet then a.ip4 == b.ip4
    else if a.family = afInet6 then a.bytes == b.bytes
    else false
  else if a.family = afInet ∧ b.family = afInet6 then ipv6Ipv4InV6 b && a.ip4 == b.embedded
  else if a.family = afInet6 ∧ b.family = afInet then ipv6Ipv4InV6 a && a.embedded == b.ip4
  else false

/-- `ipport_equal`. -/
def ipportEqual (a b : IpPort) : Bool :=
  if a.port = 0 ∨ a.port ≠ b.port then false else ipEqual a.ip b.ip

/-- `ip_isset`. -/
def ipIsset (ip : Ip) : Bool := ip.family ≠ 0

/-- `ipport_isset`. -/
def ipportIsset (ipPort : IpPort) : Bool := if ipPort.port = 0 then false else ipIsset ipPort.ip

/-- `is_timeout` at the clock value `now`; the sum wraps. -/
def isTimeout (now timestamp timeout : UInt64) : Bool := timestamp + timeout ≤ now

end Toxcore
