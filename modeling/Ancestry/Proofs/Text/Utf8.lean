import Ancestry.Text.Utf8

/-!
# Reading written text

The bytes of a character are one head, whatever follows them, so that both readings give back
the text that was written. In lenient reading a byte below 128 stands for itself wherever it
is: it ends what was begun before it, and no other byte is read as its character. So text that
is cut at such bytes may be read piece by piece.
-/

namespace Ancestry.Utf8

variable {first second third fourth : UInt8} {rest : Bytes}

/-- The test for a range of bytes, as two bounds. -/
theorem within_iff {low high byte : UInt8} :
    within low high byte = true ↔ low.toNat ≤ byte.toNat ∧ byte.toNat ≤ high.toNat := by
  simp [within, UInt8.le_iff_toNat_le]

/-- The bytes that continue a character. -/
theorem continues_iff {byte : UInt8} :
    continues byte = true ↔ 128 ≤ byte.toNat ∧ byte.toNat ≤ 191 := within_iff

/-- A byte below 128 is a character by itself. -/
theorem head_one (leads : first.toNat < 128) :
    head first rest = .whole (Char.ofNat first.toNat) 0 := by
  rw [head, if_pos (UInt8.lt_iff_toNat_lt.mpr leads)]

/-- A byte of the first kind and one that continues it are one character. -/
theorem head_two (least : 194 ≤ first.toNat) (leads : first.toNat < 224)
    (next : continues second = true) :
    head first (second :: rest) =
      .whole (Char.ofNat (first.toNat % 32 * 64 + payload second)) 1 := by
  simp only [head, UInt8.lt_iff_toNat_lt, UInt8.toNat_ofNat, head2, next, if_true]
  rw [if_neg (by omega), if_neg (by omega), if_pos (by omega)]

/-- Three bytes are a character that is neither overlong nor a surrogate. -/
theorem head_three (least : 224 ≤ first.toNat) (leads : first.toNat < 240)
    (long : first.toNat = 224 → 160 ≤ second.toNat) (plain : first.toNat = 237 → second.toNat < 160)
    (next : continues second = true) (last : continues third = true) :
    head first (second :: third :: rest) =
      .whole (Char.ofNat (first.toNat % 16 * 4096 + payload second * 64 + payload third)) 2 := by
  rw [continues_iff] at next
  simp only [head, UInt8.lt_iff_toNat_lt, ← UInt8.toNat_inj, UInt8.toNat_ofNat, head3, within_iff,
    last, if_true]
  grind

/-- Four bytes are a character that is neither overlong nor past the last one. -/
theorem head_four (least : 240 ≤ first.toNat) (leads : first.toNat < 245)
    (long : first.toNat = 240 → 144 ≤ second.toNat)
    (inside : first.toNat = 244 → second.toNat < 144)
    (next : continues second = true) (later : continues third = true)
    (last : continues fourth = true) :
    head first (second :: third :: fourth :: rest) =
      .whole (Char.ofNat (first.toNat % 8 * 262144 + payload second * 4096 + payload third * 64 +
        payload fourth)) 3 := by
  rw [continues_iff] at next
  simp only [head, UInt8.lt_iff_toNat_lt, ← UInt8.toNat_inj, UInt8.toNat_ofNat, head4, within_iff,
    later, last, if_true]
  grind

/-- The number of a byte that continues a character. -/
theorem toNat_tail (value : Nat) : (UInt8.ofNat (value % 64 + 128)).toNat = value % 64 + 128 := by
  rw [UInt8.toNat_ofNat']
  omega

/-- The payload of a byte that was written to continue a character. -/
theorem payload_tail (value : Nat) : payload (UInt8.ofNat (value % 64 + 128)) = value % 64 := by
  rw [payload, toNat_tail]
  omega

/-- Six bits and the mark of a continuation are a byte that continues. -/
theorem continues_tail (value : Nat) : continues (UInt8.ofNat (value % 64 + 128)) = true := by
  rw [continues_iff, toNat_tail]
  omega

/-- The bytes of a character are one head, whatever follows them. -/
theorem head_encodeChar (c : Char) (rest : Bytes) :
    ∃ first more, String.utf8EncodeChar c = first :: more ∧
      head first (more ++ rest) = .whole c more.length := by
  have scalar : c.val.toNat < 0xD800 ∨ 0xDFFF < c.val.toNat ∧ c.val.toNat < 0x110000 := c.valid
  have same : Char.ofNat c.val.toNat = c := Char.ofNat_toNat c
  simp only [String.utf8EncodeChar]
  generalize c.val.toNat = value at scalar same
  subst same
  -- One case for each number of bytes; the first of them tells the number.
  split
  · have lead : (UInt8.ofNat value).toNat = value := by rw [UInt8.toNat_ofNat']; omega
    refine ⟨_, _, rfl, ?_⟩
    rw [head_one (by omega), lead]
    rfl
  · split
    · have lead : (UInt8.ofNat (value / 64 % 32 + 192)).toNat = value / 64 + 192 := by
        rw [UInt8.toNat_ofNat']; omega
      refine ⟨_, _, rfl, ?_⟩
      rw [List.cons_append, head_two (by omega) (by omega) (continues_tail _), lead, payload_tail]
      congr 2
      omega
    · split
      · have lead : (UInt8.ofNat (value / 4096 % 16 + 224)).toNat = value / 4096 + 224 := by
          rw [UInt8.toNat_ofNat']; omega
        refine ⟨_, _, rfl, ?_⟩
        rw [List.cons_append, List.cons_append, head_three (by omega) (by omega)
          (by rw [lead, toNat_tail]; omega) (by rw [lead, toNat_tail]; omega) (continues_tail _)
          (continues_tail _), lead, payload_tail, payload_tail]
        congr 2
        omega
      · have lead : (UInt8.ofNat (value / 262144 % 8 + 240)).toNat = value / 262144 + 240 := by
          rw [UInt8.toNat_ofNat']; omega
        refine ⟨_, _, rfl, ?_⟩
        rw [List.cons_append, List.cons_append, List.cons_append, head_four (by omega) (by omega)
          (by rw [lead, toNat_tail]; omega) (by rw [lead, toNat_tail]; omega) (continues_tail _)
          (continues_tail _) (continues_tail _), lead, payload_tail, payload_tail, payload_tail]
        congr 2
        omega

/-- Bytes that belong to the head before them are passed over. -/
theorem scan_length (gone rest : Bytes) : scan gone.length (gone ++ rest) = heads rest := by
  induction gone with
  | nil => rfl
  | cons byte gone inductionHypothesis => exact inductionHypothesis

/-- The first head of the bytes of a character is the character. -/
theorem heads_encodeChar (c : Char) (rest : Bytes) :
    ∃ more, heads (String.utf8EncodeChar c ++ rest) = .whole c more :: heads rest := by
  obtain ⟨first, more, bytes, whole⟩ := head_encodeChar c rest
  refine ⟨more.length, ?_⟩
  rw [bytes, List.cons_append, heads, scan, whole]
  exact congrArg (Head.whole c more.length :: ·) (scan_length more rest)

/-- Texts are encoded one behind the other. -/
theorem encode_append (left right : String) :
    encode (left ++ right) = encode left ++ encode right := by
  simp [encode]

/-- The size of a text is that of its parts. -/
theorem size_append (left right : String) : size (left ++ right) = size left + size right := by
  rw [size, encode_append, List.length_append]
  rfl

/-- Characters below 128 are written as one byte each. -/
theorem encode_plain {text : String} (plain : ∀ c ∈ text.toList, c.toNat < 128) :
    encode text = text.toList.map fun c => UInt8.ofNat c.toNat := by
  rw [encode]
  generalize text.toList = chars at plain
  induction chars with
  | nil => rfl
  | cons c chars inductionHypothesis =>
    obtain ⟨first, others⟩ := List.forall_mem_cons.mp plain
    have single : c.utf8Size = 1 := by
      rw [Char.utf8Size_eq_one_iff]
      exact UInt32.le_iff_toNat_le.mpr (Nat.le_of_lt_succ first)
    rw [List.flatMap_cons, String.utf8EncodeChar_eq_singleton single, inductionHypothesis others]
    rfl

/-- A text without characters above 127 has a byte for each. -/
theorem size_plain {text : String} (plain : ∀ c ∈ text.toList, c.toNat < 128) :
    size text = text.toList.length := by
  rw [size, encode_plain plain, List.length_map]

/-- The characters that lenient reading finds. -/
theorem toList_decodeLossy (bytes : Bytes) :
    (decodeLossy bytes).toList = (heads bytes).map Head.char := by
  simp [decodeLossy]

/-- Written characters are read as themselves. -/
theorem chars_encode (chars : List Char) (rest : Bytes) :
    (heads (chars.flatMap String.utf8EncodeChar ++ rest)).map Head.char =
      chars ++ (heads rest).map Head.char := by
  induction chars with
  | nil => rfl
  | cons c chars inductionHypothesis =>
    obtain ⟨more, found⟩ := heads_encodeChar c (chars.flatMap String.utf8EncodeChar ++ rest)
    rw [List.flatMap_cons, List.append_assoc, found, List.map_cons, inductionHypothesis]
    rfl

/-- Lenient reading gives back what was written. -/
theorem decodeLossy_encode (text : String) : decodeLossy (encode text) = text := by
  have found := chars_encode text.toList []
  rw [List.append_nil] at found
  rw [decodeLossy, encode, found]
  simp [heads, scan]

/-- Strict reading gives the written characters, wherever they stand. -/
theorem strictChars_encode (chars : List Char) (index : Nat) :
    strictChars index (heads (chars.flatMap String.utf8EncodeChar)) = .ok chars := by
  induction chars generalizing index with
  | nil => rfl
  | cons c chars inductionHypothesis =>
    obtain ⟨more, found⟩ := heads_encodeChar c (chars.flatMap String.utf8EncodeChar)
    rw [List.flatMap_cons, found, strictChars, inductionHypothesis]
    rfl

/-- Strict reading gives back what was written. -/
theorem decode_encode (text : String) : decode (encode text) = .ok text := by
  rw [decode, encode, strictChars_encode]
  exact congrArg Except.ok String.ofList_toList

/-- What a first byte leads to. The bounds on the second byte leave out overlong forms,
surrogates and values above the last character. -/
inductive Leads (first : UInt8) : Prop where
  | plain (small : first.toNat < 128)
      (same : ∀ rest, head first rest = .whole (Char.ofNat first.toNat) 0)
  | broken (same : ∀ rest, head first rest = .broken 0)
  | two (large : 2 ≤ first.toNat % 32) (same : ∀ rest, head first rest = head2 first rest)
  | three (low high : UInt8) (tail : 128 ≤ low.toNat ∧ high.toNat ≤ 191)
      (large : first.toNat % 16 = 0 → 160 ≤ low.toNat)
      (scalar : first.toNat % 16 = 13 → high.toNat ≤ 159)
      (same : ∀ rest, head first rest = head3 low high first rest)
  | four (low high : UInt8) (tail : 128 ≤ low.toNat ∧ high.toNat ≤ 191)
      (large : first.toNat % 8 = 0 → 144 ≤ low.toNat)
      (scalar : first.toNat % 8 < 4 ∨ first.toNat % 8 = 4 ∧ high.toNat ≤ 143)
      (same : ∀ rest, head first rest = head4 low high first rest)

/-- The tests on a first byte, one after the other. -/
theorem leads (first : UInt8) : Leads first := by
  by_cases one : first < 0x80
  · exact .plain (UInt8.lt_iff_toNat_lt.mp one) fun rest => by simp [head, one]
  by_cases stray : first < 0xC2
  · exact .broken fun rest => by simp [head, one, stray]
  have least : 194 ≤ first.toNat := UInt8.le_iff_toNat_le.mp (UInt8.not_lt.mp stray)
  by_cases two : first < 0xE0
  · have most : first.toNat < 224 := UInt8.lt_iff_toNat_lt.mp two
    exact .two (by omega) fun rest => by simp [head, one, stray, two]
  have least : 224 ≤ first.toNat := UInt8.le_iff_toNat_le.mp (UInt8.not_lt.mp two)
  by_cases long : first = 0xE0
  · exact .three 0xA0 0xBF (by decide) (fun _ => by decide) (by subst long; decide) fun rest => by
      rw [long]; rfl
  have longer : first.toNat ≠ 224 := fun same => long (UInt8.toNat_inj.mp same)
  by_cases surrogate : first = 0xED
  · exact .three 0x80 0x9F (by decide) (by subst surrogate; decide) (fun _ => by decide)
      fun rest => by rw [surrogate]; rfl
  have plain : first.toNat ≠ 237 := fun same => surrogate (UInt8.toNat_inj.mp same)
  by_cases three : first < 0xF0
  · have most : first.toNat < 240 := UInt8.lt_iff_toNat_lt.mp three
    exact .three 0x80 0xBF (by decide) (by omega) (by omega) fun rest => by
      simp [head, one, stray, two, long, surrogate, three]
  have least : 240 ≤ first.toNat := UInt8.le_iff_toNat_le.mp (UInt8.not_lt.mp three)
  by_cases higher : first = 0xF0
  · exact .four 0x90 0xBF (by decide) (fun _ => by decide) (by subst higher; decide)
      fun rest => by rw [higher]; rfl
  have highest : first.toNat ≠ 240 := fun same => higher (UInt8.toNat_inj.mp same)
  by_cases four : first < 0xF4
  · have most : first.toNat < 244 := UInt8.lt_iff_toNat_lt.mp four
    exact .four 0x80 0xBF (by decide) (by omega) (by omega) fun rest => by
      simp [head, one, stray, two, long, surrogate, three, higher, four]
  by_cases last : first = 0xF4
  · exact .four 0x80 0x8F (by decide) (by subst last; decide) (by subst last; decide)
      fun rest => by rw [last]; rfl
  · exact .broken fun rest => by
      simp [head, one, stray, two, long, surrogate, three, higher, four, last]

/-- A head has no more bytes than there are. -/
theorem head_more_le (first : UInt8) (rest : Bytes) : (head first rest).more ≤ rest.length := by
  rcases leads first with ⟨_, same⟩ | ⟨same⟩ | ⟨_, same⟩ | ⟨low, high, _, _, _, same⟩ |
    ⟨low, high, _, _, _, same⟩
  all_goals rw [same]
  · exact Nat.zero_le _
  · exact Nat.zero_le _
  · cases rest <;> grind [head2, Head.more]
  · rcases rest with _ | ⟨second, _ | ⟨third, rest⟩⟩ <;> grind [head3, Head.more]
  · rcases rest with _ | ⟨second, _ | ⟨third, _ | ⟨fourth, rest⟩⟩⟩ <;> grind [head4, Head.more]

section Cutting

variable {byte : UInt8} (plain : byte.toNat < 128) (first : UInt8) (rest after : Bytes)

include plain

/-- A byte below 128 lies between no bounds for the bytes of a longer character. -/
theorem within_plain {low high : UInt8} (least : 128 ≤ low.toNat) : within low high byte = false :=
  Bool.eq_false_iff.mpr fun inside => absurd (within_iff.mp inside).1 (by omega)

/-- A byte below 128 cuts off the head before it, which reads the same. -/
theorem head_before :
    (head first (rest ++ byte :: after)).char = (head first rest).char ∧
      (head first (rest ++ byte :: after)).more = (head first rest).more := by
  have stops : continues byte = false := within_plain plain (by decide)
  rcases leads first with ⟨_, same⟩ | ⟨same⟩ | ⟨_, same⟩ | ⟨low, high, ⟨tail, _⟩, _, _, same⟩ |
    ⟨low, high, ⟨tail, _⟩, _, _, same⟩
  all_goals rw [same, same]
  · exact ⟨rfl, rfl⟩
  · exact ⟨rfl, rfl⟩
  · cases rest <;> simp [head2, stops, Head.char, Head.more]
  · have outside : within low high byte = false := within_plain plain tail
    rcases rest with _ | ⟨second, _ | ⟨third, rest⟩⟩
    all_goals simp only [head3, List.nil_append, List.cons_append, outside, stops]
    all_goals grind [Head.char, Head.more]
  · have outside : within low high byte = false := within_plain plain tail
    rcases rest with _ | ⟨second, _ | ⟨third, _ | ⟨fourth, rest⟩⟩⟩
    all_goals simp only [head4, List.nil_append, List.cons_append, outside, stops]
    all_goals grind [Head.char, Head.more]

/-- What is cut off by a byte below 128 is read by itself, and the byte as its character. -/
theorem chars_cut (skip : Nat) (inside : skip ≤ rest.length) :
    (scan skip (rest ++ byte :: after)).map Head.char =
      (scan skip rest).map Head.char ++ Char.ofNat byte.toNat :: (heads after).map Head.char := by
  induction rest generalizing skip with
  | nil =>
    obtain rfl : skip = 0 := by simpa using inside
    simp [scan, head_one plain, Head.char, Head.more, heads]
  | cons first rest inductionHypothesis =>
    cases skip with
    | zero =>
      obtain ⟨char, more⟩ := head_before plain first rest after
      simp only [List.cons_append, scan, List.map_cons, char, more]
      rw [inductionHypothesis _ (head_more_le first rest)]
    | succ skip => exact inductionHypothesis skip (by simpa using inside)

end Cutting

/-- The bits of a continuing byte. -/
theorem payload_of_tail {byte : UInt8} (least : 128 ≤ byte.toNat) (most : byte.toNat ≤ 191) :
    byte.toNat = payload byte + 128 ∧ payload byte < 64 := by
  rw [payload]
  omega

/-- A number above 127 that is no surrogate is a character above 127. -/
theorem large_char {value : Nat} (large : 128 ≤ value)
    (scalar : value < 55296 ∨ 57343 < value ∧ value < 1114112) :
    128 ≤ (Char.ofNat value).toNat := by
  rw [Char.ofNat, dif_pos scalar]
  exact large

/-- The replacement character is none of the first 128. -/
theorem replacement_large : 128 ≤ replacement.toNat := by decide

/-- Two bytes stand for no character below 128, whether or not they belong together. -/
theorem head2_large (large : 2 ≤ first.toNat % 32) (rest : Bytes) :
    128 ≤ (head2 first rest).char.toNat := by
  rcases rest with _ | ⟨second, rest⟩
  · exact replacement_large
  rw [head2]
  split
  · rename_i next
    have next := continues_iff.mp next
    have bits := payload_of_tail next.1 next.2
    exact large_char (by omega) (by omega)
  · exact replacement_large

section Bounds

variable {low high : UInt8} (tail : 128 ≤ low.toNat ∧ high.toNat ≤ 191)

include tail

/-- Three bytes stand for no character below 128, as far as shorter forms and surrogates are ruled
out. -/
theorem head3_large (large : first.toNat % 16 = 0 → 160 ≤ low.toNat)
    (scalar : first.toNat % 16 = 13 → high.toNat ≤ 159) (rest : Bytes) :
    128 ≤ (head3 low high first rest).char.toNat := by
  rcases rest with _ | ⟨second, _ | ⟨third, rest⟩⟩
  · exact replacement_large
  · simp only [head3]
    split <;> exact replacement_large
  simp only [head3]
  split
  · rename_i next
    have next := within_iff.mp next
    have bits := payload_of_tail (Nat.le_trans tail.1 next.1) (Nat.le_trans next.2 tail.2)
    split
    · rename_i last
      have last := continues_iff.mp last
      have lastBits := payload_of_tail last.1 last.2
      exact large_char (by omega) (by omega)
    · exact replacement_large
  · exact replacement_large

/-- Four bytes stand for no character below 128, as far as shorter forms and numbers beyond the last
character are ruled out. -/
theorem head4_large (large : first.toNat % 8 = 0 → 144 ≤ low.toNat)
    (scalar : first.toNat % 8 < 4 ∨ first.toNat % 8 = 4 ∧ high.toNat ≤ 143) (rest : Bytes) :
    128 ≤ (head4 low high first rest).char.toNat := by
  rcases rest with _ | ⟨second, _ | ⟨third, _ | ⟨fourth, rest⟩⟩⟩
  · exact replacement_large
  · simp only [head4]
    split <;> exact replacement_large
  · simp only [head4]
    split
    · split <;> exact replacement_large
    · exact replacement_large
  simp only [head4]
  split
  · rename_i next
    have next := within_iff.mp next
    have bits := payload_of_tail (Nat.le_trans tail.1 next.1) (Nat.le_trans next.2 tail.2)
    split
    · rename_i later
      have later := continues_iff.mp later
      have laterBits := payload_of_tail later.1 later.2
      split
      · rename_i last
        have last := continues_iff.mp last
        have lastBits := payload_of_tail last.1 last.2
        exact large_char (by omega) (by omega)
      · exact replacement_large
    · exact replacement_large
  · exact replacement_large

end Bounds

/-- Only a byte below 128 is read as a character below 128. -/
theorem head_plain (plain : (head first rest).char.toNat < 128) :
    (head first rest).char = Char.ofNat first.toNat ∧ first.toNat < 128 := by
  rcases leads first with ⟨small, same⟩ | ⟨same⟩ | ⟨large, same⟩ |
    ⟨low, high, tail, large, scalar, same⟩ | ⟨low, high, tail, large, scalar, same⟩
  all_goals rw [same] at plain ⊢
  · exact ⟨rfl, small⟩
  · exact absurd replacement_large (Nat.not_le.mpr plain)
  · exact absurd (head2_large large rest) (Nat.not_le.mpr plain)
  · exact absurd (head3_large tail large scalar rest) (Nat.not_le.mpr plain)
  · exact absurd (head4_large tail large scalar rest) (Nat.not_le.mpr plain)

/-- A character below 128 that is read stands among the bytes. -/
theorem mem_of_char {c : Char} (plain : c.toNat < 128) (bytes : Bytes) (skip : Nat)
    (read : c ∈ (scan skip bytes).map Head.char) : UInt8.ofNat c.toNat ∈ bytes := by
  induction bytes generalizing skip with
  | nil => simp [scan] at read
  | cons first rest inductionHypothesis =>
    cases skip with
    | succ skip => exact List.mem_cons_of_mem _ (inductionHypothesis skip read)
    | zero =>
      rw [scan, List.map_cons] at read
      rcases List.mem_cons.mp read with rfl | later
      · obtain ⟨same, small⟩ := head_plain plain
        have number : (Char.ofNat first.toNat).toNat = first.toNat := by
          rw [Char.ofNat, dif_pos (.inl (by omega))]
          rfl
        rw [same, number, UInt8.ofNat_toNat]
        exact List.mem_cons_self
      · exact List.mem_cons_of_mem _ (inductionHypothesis _ later)

end Ancestry.Utf8
