import CacheWarden.Lib.LossyText

/-!
# Text that must be UTF-8

Bytes are text only where they are the bytes of some text. What is cut off a text is either no
text, or the text up to there.
-/

set_option autoImplicit false

namespace StrictText

def encode (cs : List Char) : List UInt8 := cs.flatMap String.utf8EncodeChar

/-- `str::from_utf8`. -/
def decode (b : List UInt8) : Option (List Char) :=
  (String.fromUTF8? ⟨b.toArray⟩).map String.toList

theorem toUTF8_ofList (cs : List Char) : (String.ofList cs).toUTF8.data.toList = encode cs := by
  rw [LossyText.toUTF8_eq_flatMap, String.toList_ofList]
  rfl

theorem decode_encode (cs : List Char) : decode (encode cs) = some cs := by
  have hbytes : (⟨(encode cs).toArray⟩ : ByteArray) = (String.ofList cs).toByteArray := by
    rw [← toUTF8_ofList]
    rfl
  rw [decode, hbytes, String.fromUTF8?, dif_pos (String.ofList cs).isValidUTF8]
  exact congrArg some String.toList_ofList

theorem encode_decode {b : List UInt8} {cs : List Char} (h : decode b = some cs) :
    encode cs = b := by
  rw [decode, String.fromUTF8?] at h
  split at h
  · rename_i hvalid
    rw [Option.map_some, Option.some.injEq] at h
    rw [← h, ← toUTF8_ofList, String.ofList_toList]
    rfl
  · cases h

theorem decodeFrom_append (cs : List Char) (rest : List ℕ) :
    LossyText.decodeFrom none ((encode cs).map UInt8.toNat ++ rest) =
      cs ++ LossyText.decodeFrom none rest := by
  induction cs with
  | nil => rfl
  | cons c cs ih =>
    rw [encode, List.flatMap_cons, ← encode, List.map_append, LossyText.utf8EncodeChar_toNat,
      List.append_assoc, LossyText.decodeFrom_encode c.valid, ih, List.cons_append]
    exact congrArg (· :: _) (Char.ofNat_toNat c)

/-- The bytes of a text up to where they are a text are that much of it. -/
theorem prefix_of_encode {cs ds : List Char} (h : encode ds <+: encode cs) : ds <+: cs := by
  obtain ⟨rest, hrest⟩ := h
  have hcs := decodeFrom_append cs []
  rw [List.append_nil, ← hrest, List.map_append, decodeFrom_append] at hcs
  rw [show LossyText.decodeFrom none [] = [] from rfl, List.append_nil] at hcs
  exact ⟨_, hcs⟩

/-- An ASCII byte is that of its character. -/
theorem ascii_of_mem {c : Char} {b : UInt8} (hb : b.toNat < 128)
    (h : b ∈ String.utf8EncodeChar c) : c.val.toNat = b.toNat := by
  have hmem : b.toNat ∈ LossyText.encode c.val.toNat := by
    rw [← LossyText.utf8EncodeChar_toNat]
    exact List.mem_map_of_mem h
  unfold LossyText.encode at hmem
  split at hmem
  · exact (List.mem_singleton.mp hmem).symm
  · split at hmem
    · simp at hmem
      omega
    · split at hmem <;> simp at hmem <;> omega

theorem not_mem_encode {c : Char} {cs : List Char} {b : UInt8} (hb : b.toNat < 128)
    (hc : c.val.toNat = b.toNat) (h : c ∉ cs) : b ∉ encode cs := by
  intro hmem
  obtain ⟨d, hd, hbyte⟩ := List.mem_flatMap.mp hmem
  have hval : d.val.toNat = c.val.toNat := by rw [ascii_of_mem hb hbyte, hc]
  have hsame : d = c := Char.ext (UInt32.toNat.inj hval)
  exact h (hsame ▸ hd)

end StrictText
