import Toxcore.Dns.ToxDns

/-!
# The string of a request

`tox_generate_dns3_string` emits groups of thirty bytes with a dot behind each, and then what is left. The groups are
whole characters, so that the string without its dots is what one walk of `_encode` over all bytes gives, and `decode`
reads it back. A dot stands only where bytes follow, so that no label is empty.
-/

namespace Toxcore

open ByteStrings List

/-- The dot is not a character of the encoding. -/
theorem dot_not_mem_base32 : (46 : UInt8) ∉ base32 := by decide

/-- What is encoded has no dots. -/
theorem encodeLoop_dotless (c : ℕ) (b : Bytes) (bits : ℕ) : (46 : UInt8) ∉ (encodeLoop c b bits).1 :=
  fun hdot => dot_not_mem_base32 (encodeLoop_mem c b bits 46 hdot)

/-- Without the dots nothing of it goes. -/
theorem encodeLoop_filter (c : ℕ) (b : Bytes) (bits : ℕ) :
    (encodeLoop c b bits).1.filter (· ≠ 46) = (encodeLoop c b bits).1 :=
  filter_eq_self.mpr fun _ hch => decide_eq_true fun hdot => encodeLoop_dotless c b bits (hdot ▸ hch)

/-- Some rounds of the loop and some bytes behind the last dot. -/
def dottedFrom (rounds left : ℕ) (buff : Bytes) : Bytes :=
  (dottedLoop rounds buff 0).1 ++ (encodeLoop left (buff.drop (dotInterval * rounds)) 0).1

variable (rounds left : ℕ) (buff : Bytes)

/-- One round before the others. -/
theorem dottedFrom_succ : dottedFrom (rounds + 1) left buff =
    (encodeLoop dotInterval buff 0).1 ++ 46 :: dottedFrom rounds left (buff.drop dotInterval) := by
  rw [dottedFrom, dottedFrom, dottedLoop_succ, append_assoc, cons_append, drop_drop, Nat.mul_succ, Nat.add_comm]

/-- Every character is of the encoding, or a dot. -/
theorem dottedFrom_mem : ∀ ch ∈ dottedFrom rounds left buff, ch ∈ base32 ∨ ch = 46 := by
  induction rounds generalizing buff with
  | zero => exact fun ch hch => .inl (encodeLoop_mem left _ 0 ch hch)
  | succ rounds ih =>
    intro ch hch
    rw [dottedFrom_succ] at hch
    rcases mem_append.mp hch with hgroup | hrest
    · exact .inl (encodeLoop_mem _ _ _ ch hgroup)
    · rcases mem_cons.mp hrest with hdot | hrest
      · exact .inr hdot
      · exact ih _ ch hrest

/-- Every label has a character, and at most forty-eight. -/
theorem dottedFrom_labels {left : ℕ} (hpos : 0 < left) (hle : left ≤ dotInterval) (buff : Bytes) :
    ∀ label ∈ (dottedFrom rounds left buff).splitOn 46, label ≠ [] ∧ label.length ≤ 48 := by
  induction rounds generalizing buff with
  | zero =>
    intro label hlabel
    change label ∈ ((encodeLoop left buff 0).1).splitOn 46 at hlabel
    rw [splitOn_eq_singleton (encodeLoop_dotless left buff 0)] at hlabel
    obtain rfl := mem_singleton.mp hlabel
    obtain ⟨-, hbits, hcount⟩ := encodeLoop_counts left buff (Nat.zero_le 4)
    have hthirty : left ≤ 30 := hle
    refine ⟨ne_nil_of_length_pos ?_, ?_⟩ <;> omega
  | succ rounds ih =>
    intro label hlabel
    rw [dottedFrom_succ, splitOn_append_cons_self_of_not_mem (encodeLoop_dotless dotInterval buff 0)] at hlabel
    rcases mem_cons.mp hlabel with rfl | hlabel
    · have hlen := (encodeLoop_dotInterval buff).2
      exact ⟨ne_nil_of_length_pos (by omega), hlen.le⟩
    · exact ih _ label hlabel

/-- Without the dots it is one walk over all bytes. -/
theorem dottedFrom_filter :
    (dottedFrom rounds left buff).filter (· ≠ 46) = (encodeLoop (dotInterval * rounds + left) buff 0).1 := by
  induction rounds generalizing buff with
  | zero =>
    rw [Nat.mul_zero, Nat.zero_add]
    exact encodeLoop_filter left buff 0
  | succ rounds ih =>
    have hcount : dotInterval * (rounds + 1) + left = dotInterval + (dotInterval * rounds + left) := by
      rw [Nat.mul_succ, Nat.add_comm (dotInterval * rounds), Nat.add_assoc]
    rw [dottedFrom_succ, filter_append, encodeLoop_filter, filter_cons_of_neg (by decide), ih, hcount,
      encodeLoop_add dotInterval, (encodeLoop_dotInterval buff).1]

/-- Without the dots the string is the encoding of the bytes. -/
theorem dottedString_filter (buffer : Bytes) :
    (dottedString buffer).filter (· ≠ 46) = (encodeLoop buffer.length buffer 0).1 := by
  have hfits : dotInterval * dotRounds buffer.length ≤ buffer.length := dotRounds_fits buffer.length
  rw [dottedString_eq]
  refine (dottedFrom_filter _ _ buffer).trans ?_
  rw [Nat.add_sub_cancel' hfits]

/-- A request whose name is encrypted returns `end_len` characters of the encoding, in labels of at most forty-eight
that are separated by dots; without the dots they decode to the nonce, the temporary key and the encrypted name. Any
bytes are read back from their encoding. -/
theorem toxGenerateDns3String_codec (sodium : Sodium) (draw : DnsDraw) (d : DnsObject) (stringMaxLen : UInt16)
    (name encrypted : Bytes) (hfits : endLen (4 + 32 + name.length + macBytes) ≤ stringMaxLen.toNat)
    (hencrypt : encryptDataSymmetric sodium d.sharedKey (dnsNonce d.nonce 0) name = some encrypted) :
    (∃ string, toxGenerateDns3String sodium draw d stringMaxLen name =
      (some (string, d.nonce), dnsAdvance sodium draw d) ∧
      string.length = endLen (4 + 32 + name.length + macBytes) ∧ (∀ ch ∈ string, ch ∈ base32 ∨ ch = 46) ∧
      (∀ label ∈ string.splitOn 46, label ≠ [] ∧ label.length ≤ 48) ∧
      decode (string.filter (· ≠ 46)) = some ((hostBytes32 d.nonce).toList ++ d.tempPk.toList ++ encrypted)) ∧
    ∀ data : Bytes, data ≠ [] → (dottedString data).filter (· ≠ 46) = (encodeLoop data.length data 0).1 ∧
      decode ((dottedString data).filter (· ≠ 46)) = some data := by
  have hread (data : Bytes) : (dottedString data).filter (· ≠ 46) = (encodeLoop data.length data 0).1 ∧
      decode ((dottedString data).filter (· ≠ 46)) = some data := by
    rw [dottedString_filter]
    exact ⟨rfl, decode_encodeLoop data⟩
  have hbuffer : (dnsBuffer d encrypted).length = 4 + 32 + name.length + macBytes := dnsBuffer_length d hencrypt
  have hbytes : 0 < (dnsBuffer d encrypted).length := by omega
  obtain ⟨hlow, hhigh⟩ := dotRounds_spec hbytes
  refine ⟨⟨dottedString (dnsBuffer d encrypted), toxGenerateDns3String_succeeds draw hfits hencrypt, ?_, ?_, ?_,
    (hread _).2⟩,
    fun data _ => hread data⟩
  · rw [dottedString_length hbytes, hbuffer]
  · rw [dottedString_eq]
    exact dottedFrom_mem _ _ _
  · have hrest : 0 < (dnsBuffer d encrypted).length - dotInterval * dotRounds (dnsBuffer d encrypted).length :=
      Nat.sub_pos_of_lt hlow
    rw [dottedString_eq]
    refine dottedFrom_labels _ hrest ?_ _
    exact Nat.sub_le_iff_le_add'.mpr hhigh

/-- The string for a name of one letter. -/
theorem toxGenerateDns3String_codec_letter :
    ∃ string, (toxGenerateDns3String Sodium.plain ⟨7, List.Vector.replicate 32 1⟩
        (toxDns3New Sodium.plain ⟨7, List.Vector.replicate 32 0⟩ (List.Vector.replicate 32 5)) 255 [97]).1 =
          some (string, 7) ∧
      string.length = 86 ∧ ∀ label ∈ string.splitOn 46, label ≠ [] ∧ label.length ≤ 48 := by
  obtain ⟨⟨string, hcall, hlength, -, hlabels, -⟩, -⟩ :=
    toxGenerateDns3String_codec Sodium.plain ⟨7, List.Vector.replicate 32 1⟩
    (toxDns3New Sodium.plain ⟨7, List.Vector.replicate 32 0⟩ (List.Vector.replicate 32 5)) 255 [97]
    ([97] ++ List.replicate 16 0) (by decide) rfl
  exact ⟨string, congrArg Prod.fst hcall, hlength, hlabels⟩

end Toxcore
