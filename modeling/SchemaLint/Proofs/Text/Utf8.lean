import Mathlib.Data.List.Basic
import SchemaLint.Text.Utf8

/-! Strict UTF-8 against the encoding of characters. Bytes are decoded exactly if
they encode some text, and otherwise the fault stands where the longest part that
encodes a text ends. -/
namespace SchemaLint.Text.Utf8

/-- The bytes of a text. -/
def encode (text : List Char) : List UInt8 := text.flatMap String.utf8EncodeChar

theorem encode_cons (c : Char) (text : List Char) :
    encode (c :: text) = String.utf8EncodeChar c ++ encode text :=
  List.flatMap_cons

/-- The bytes encode some text. -/
def Valid (bytes : List UInt8) : Prop := ∃ text, bytes = encode text

/-- Bits with those of some continuation bytes after them. -/
def continued (bits : Nat) (bytes : List UInt8) : Nat :=
  bytes.foldl (fun bits byte => bits * 0x40 + (byte.toNat - 0x80)) bits

theorem continued_cons (bits : Nat) (byte : UInt8) (tail : List UInt8) :
    continued bits (byte :: tail) =
      continued (bits * 0x40 + (byte.toNat - 0x80)) tail := by
  rw [continued, List.foldl_cons, ← continued]

theorem continued_nil (bits : Nat) : continued bits [] = bits := rfl

def IsContinuation (byte : UInt8) : Prop := 0x80 ≤ byte.toNat ∧ byte.toNat ≤ 0xBF

/-- The bytes complete the pending sequence. -/
structure Completes (pending : Pending) (byte : UInt8) (tail : List UInt8) : Prop where
  length : pending.owed = tail.length + 1
  low : pending.low.toNat ≤ byte.toNat
  high : byte.toNat ≤ pending.high.toNat
  tail : ∀ other ∈ tail, IsContinuation other

/-- What is pending after one more byte. -/
def Pending.next (pending : Pending) (byte : UInt8) : Pending :=
  ⟨pending.start, pending.owed - 1, 0x80, 0xBF, pending.bits * 0x40 + (byte.toNat - 0x80)⟩

section Pending

variable {pending : Pending} {byte : UInt8} (offset : Nat) (rest : List UInt8)

theorem decodeFrom_outside (outside : ¬ (pending.low.toNat ≤ byte.toNat ∧
    byte.toNat ≤ pending.high.toNat)) :
    decodeFrom offset (some pending) (byte :: rest) =
      .error ⟨.badContinuation, pending.start⟩ := by
  rw [decodeFrom, if_pos]
  simp only [Bool.or_eq_true, decide_eq_true_eq, UInt8.lt_iff_toNat_lt]
  omega

theorem decodeFrom_inside (low : pending.low.toNat ≤ byte.toNat)
    (high : byte.toNat ≤ pending.high.toNat) :
    decodeFrom offset (some pending) (byte :: rest) =
      if pending.owed ≤ 1 then (decodeFrom (offset + 1) none rest).map
        (Char.ofNat (pending.bits * 0x40 + (byte.toNat - 0x80)) :: ·)
      else decodeFrom (offset + 1) (some (pending.next byte)) rest := by
  rw [decodeFrom, if_neg]
  · rfl
  simp only [Bool.or_eq_true, decide_eq_true_eq, UInt8.lt_iff_toNat_lt]
  omega

end Pending

theorem decodeFrom_complete {pending : Pending} {byte : UInt8} {tail : List UInt8}
    (completes : Completes pending byte tail) (offset : Nat) (rest : List UInt8) :
    decodeFrom offset (some pending) (byte :: (tail ++ rest)) =
      (decodeFrom (offset + (tail.length + 1)) none rest).map
        (Char.ofNat (continued pending.bits (byte :: tail)) :: ·) := by
  induction tail generalizing offset pending byte with
  | nil =>
    have last : pending.owed ≤ 1 := Nat.le_of_eq completes.length
    rw [decodeFrom_inside _ _ completes.low completes.high, if_pos last, continued_cons]
    rfl
  | cons next tail ih =>
    obtain ⟨length, low, high, continues⟩ := completes
    rw [List.length_cons] at length
    have following : Completes (pending.next byte) next tail :=
      ⟨by simp [Pending.next, length], (continues next List.mem_cons_self).1,
        (continues next List.mem_cons_self).2,
        fun other member => continues other (List.mem_cons_of_mem _ member)⟩
    have offsets : offset + 1 + (tail.length + 1) = offset + (tail.length + 1 + 1) := by omega
    rw [decodeFrom_inside _ _ low high, if_neg (by omega), List.cons_append, ih following, offsets,
      List.length_cons, continued_cons pending.bits byte]
    rfl

theorem decodeFrom_pending (offset : Nat) {pending : Pending} (owes : 0 < pending.owed)
    (bytes : List UInt8) :
    (∃ reason, decodeFrom offset (some pending) bytes = .error ⟨reason, pending.start⟩) ∨
      ∃ byte tail rest, bytes = byte :: (tail ++ rest) ∧ Completes pending byte tail := by
  induction bytes generalizing offset pending with
  | nil => exact Or.inl ⟨.truncated, rfl⟩
  | cons byte bytes ih =>
    by_cases inside : pending.low.toNat ≤ byte.toNat ∧ byte.toNat ≤ pending.high.toNat
    · obtain ⟨low, high⟩ := inside
      rw [decodeFrom_inside _ _ low high]
      by_cases last : pending.owed ≤ 1
      · have length : pending.owed = 1 := by omega
        exact Or.inr ⟨byte, [], bytes, rfl, length, low, high, by simp⟩
      · rw [if_neg last]
        have stillOwes : 0 < (pending.next byte).owed := Nat.sub_pos_of_lt (by omega)
        rcases ih (offset + 1) stillOwes with
          failed | ⟨next, tail, rest, rfl, length, nextLow, nextHigh, continues⟩
        · exact Or.inl failed
        · have one_more : pending.owed = tail.length + 1 + 1 := by
            simp only [Pending.next] at length
            omega
          refine Or.inr ⟨byte, next :: tail, rest, rfl, one_more, low, high, ?_⟩
          intro other member
          rcases List.mem_cons.mp member with rfl | later
          · exact ⟨nextLow, nextHigh⟩
          · exact continues other later
    · exact Or.inl ⟨_, decodeFrom_outside _ _ inside⟩

/-- The three kinds of first bytes, by the number of bytes that follow. -/
theorem begin?_eq (start : Nat) (byte : UInt8) :
    begin? start byte =
      if byte.toNat < 0xC2 then none
      else if byte.toNat < 0xE0 then some ⟨start, 1, 0x80, 0xBF, byte.toNat - 0xC0⟩
      else if byte.toNat < 0xF0 then
        some ⟨start, 2, if byte.toNat = 0xE0 then 0xA0 else 0x80,
          if byte.toNat = 0xED then 0x9F else 0xBF, byte.toNat - 0xE0⟩
      else if byte.toNat < 0xF5 then
        some ⟨start, 3, if byte.toNat = 0xF0 then 0x90 else 0x80,
          if byte.toNat = 0xF4 then 0x8F else 0xBF, byte.toNat - 0xF0⟩
      else none := by
  simp only [begin?, UInt8.lt_iff_toNat_lt, ← UInt8.toNat_inj]
  simp only [UInt8.reduceToNat]
  grind

theorem val_toNat_ofNat {code : Nat} (valid : code.isValidChar) :
    (Char.ofNat code).val.toNat = code := by
  have plain : Char.ofNat code = Char.ofNatAux code valid := dif_pos valid
  rw [plain]
  rfl

section Sequences

variable {first second third last : UInt8}

theorem utf8EncodeChar_two (lead : 0xC2 ≤ first.toNat ∧ first.toNat < 0xE0)
    (ends : IsContinuation last) :
    String.utf8EncodeChar (Char.ofNat (continued (first.toNat - 0xC0) [last])) =
      [first, last] := by
  obtain ⟨low, high⟩ := ends
  simp only [continued_cons, continued_nil]
  generalize code_eq : (first.toNat - 0xC0) * 0x40 + (last.toNat - 0x80) = code
  have valid : code.isValidChar := Or.inl (by omega)
  have byte₁ : code / 64 % 32 + 192 = first.toNat := by omega
  have byte₂ : code % 64 + 128 = last.toNat := by omega
  rw [String.utf8EncodeChar, val_toNat_ofNat valid, if_neg (by omega), if_pos (by omega), byte₁,
    byte₂, UInt8.ofNat_toNat, UInt8.ofNat_toNat]

theorem utf8EncodeChar_three (lead : 0xE0 ≤ first.toNat ∧ first.toNat < 0xF0)
    (follows : IsContinuation second) (notShort : first.toNat = 0xE0 → 0xA0 ≤ second.toNat)
    (notSurrogate : first.toNat = 0xED → second.toNat ≤ 0x9F) (ends : IsContinuation last) :
    String.utf8EncodeChar (Char.ofNat (continued (first.toNat - 0xE0) [second, last])) =
      [first, second, last] := by
  obtain ⟨secondLow, secondHigh⟩ := follows
  obtain ⟨low, high⟩ := ends
  simp only [continued_cons, continued_nil]
  generalize code_eq : ((first.toNat - 0xE0) * 0x40 + (second.toNat - 0x80)) * 0x40 +
    (last.toNat - 0x80) = code
  have valid : code.isValidChar := by
    rw [Nat.isValidChar]
    omega
  have byte₁ : code / 4096 % 16 + 224 = first.toNat := by omega
  have byte₂ : code / 64 % 64 + 128 = second.toNat := by omega
  have byte₃ : code % 64 + 128 = last.toNat := by omega
  rw [String.utf8EncodeChar, val_toNat_ofNat valid, if_neg (by omega), if_neg (by omega),
    if_pos (by omega), byte₁, byte₂, byte₃, UInt8.ofNat_toNat, UInt8.ofNat_toNat,
    UInt8.ofNat_toNat]

theorem utf8EncodeChar_four (lead : 0xF0 ≤ first.toNat ∧ first.toNat < 0xF5)
    (follows : IsContinuation second) (notShort : first.toNat = 0xF0 → 0x90 ≤ second.toNat)
    (notBeyond : first.toNat = 0xF4 → second.toNat ≤ 0x8F) (continues : IsContinuation third)
    (ends : IsContinuation last) :
    String.utf8EncodeChar (Char.ofNat (continued (first.toNat - 0xF0) [second, third, last])) =
      [first, second, third, last] := by
  obtain ⟨secondLow, secondHigh⟩ := follows
  obtain ⟨thirdLow, thirdHigh⟩ := continues
  obtain ⟨low, high⟩ := ends
  simp only [continued_cons, continued_nil]
  generalize code_eq : (((first.toNat - 0xF0) * 0x40 + (second.toNat - 0x80)) * 0x40 +
    (third.toNat - 0x80)) * 0x40 + (last.toNat - 0x80) = code
  have valid : code.isValidChar := by
    rw [Nat.isValidChar]
    omega
  have byte₁ : code / 262144 % 8 + 240 = first.toNat := by omega
  have byte₂ : code / 4096 % 64 + 128 = second.toNat := by omega
  have byte₃ : code / 64 % 64 + 128 = third.toNat := by omega
  have byte₄ : code % 64 + 128 = last.toNat := by omega
  rw [String.utf8EncodeChar, val_toNat_ofNat valid, if_neg (by omega), if_neg (by omega),
    if_neg (by omega), byte₁, byte₂, byte₃, byte₄, UInt8.ofNat_toNat, UInt8.ofNat_toNat,
    UInt8.ofNat_toNat, UInt8.ofNat_toNat]

end Sequences

/-- A first byte, with bytes that complete its sequence, is the encoding of the
character with the bits of all of them. -/
theorem utf8EncodeChar_sequence {start : Nat} {first byte : UInt8} {tail : List UInt8}
    {pending : Pending} (begins : begin? start first = some pending)
    (completes : Completes pending byte tail) :
    String.utf8EncodeChar (Char.ofNat (continued pending.bits (byte :: tail))) =
      first :: byte :: tail := by
  obtain ⟨length, low, high, continues⟩ := completes
  rw [begin?_eq] at begins
  split at begins
  · cases begins
  split at begins
  · obtain rfl := Option.some.inj begins
    obtain rfl := List.eq_nil_of_length_eq_zero (Nat.succ.inj length).symm
    exact utf8EncodeChar_two (by omega) ⟨low, high⟩
  split at begins
  · obtain rfl := Option.some.inj begins
    obtain ⟨last, rfl⟩ := List.length_eq_one_iff.mp (Nat.succ.inj length).symm
    simp only [apply_ite UInt8.toNat, UInt8.reduceToNat] at low high
    have plain : IsContinuation byte := by
      constructor <;> split at low <;> split at high <;> omega
    exact utf8EncodeChar_three (by omega) plain (fun least => by rwa [if_pos least] at low)
      (fun surrogate => by rwa [if_pos surrogate] at high) (continues last (by simp))
  split at begins
  · obtain rfl := Option.some.inj begins
    obtain ⟨third, last, rfl⟩ := List.length_eq_two.mp (Nat.succ.inj length).symm
    simp only [apply_ite UInt8.toNat, UInt8.reduceToNat] at low high
    have plain : IsContinuation byte := by
      constructor <;> split at low <;> split at high <;> omega
    exact utf8EncodeChar_four (by omega) plain (fun least => by rwa [if_pos least] at low)
      (fun most => by rwa [if_pos most] at high) (continues third (by simp))
      (continues last (by simp))
  · cases begins

theorem exists_byte (code : Nat) (small : code < 0x100) : ∃ byte : UInt8, byte.toNat = code :=
  ⟨UInt8.ofNat code, UInt8.toNat_ofNat_of_lt' small⟩

/-- Every character beyond the first 128 is a first byte and bytes that complete
its sequence. -/
theorem exists_sequence {c : Char} (large : 0x80 ≤ c.toNat) (start : Nat) :
    ∃ first byte tail pending, begin? start first = some pending ∧
      Completes pending byte tail ∧ c.toNat = continued pending.bits (byte :: tail) := by
  have valid : c.toNat < 0xD800 ∨ 0xDFFF < c.toNat ∧ c.toNat < 0x110000 := c.valid
  generalize c.toNat = code at large valid
  obtain ⟨last, last_eq⟩ := exists_byte (0x80 + code % 0x40) (by omega)
  have lastContinues : IsContinuation last := ⟨by omega, by omega⟩
  by_cases two : code < 0x800
  · obtain ⟨first, first_eq⟩ := exists_byte (0xC0 + code / 0x40) (by omega)
    refine ⟨first, last, [], ⟨start, 1, 0x80, 0xBF, first.toNat - 0xC0⟩, ?_,
      ⟨rfl, lastContinues.1, lastContinues.2, by simp⟩, ?_⟩
    · rw [begin?_eq, if_neg (by omega), if_pos (by omega)]
    · simp only [continued_cons, continued_nil]
      omega
  by_cases three : code < 0x10000
  · obtain ⟨first, first_eq⟩ := exists_byte (0xE0 + code / 0x1000) (by omega)
    obtain ⟨second, second_eq⟩ := exists_byte (0x80 + code / 0x40 % 0x40) (by omega)
    refine ⟨first, second, [last], _, by
      rw [begin?_eq, if_neg (by omega), if_neg (by omega), if_pos (by omega)],
      ⟨rfl, ?_, ?_, by simpa using lastContinues⟩, ?_⟩
    · simp only [apply_ite UInt8.toNat, UInt8.reduceToNat]
      split <;> omega
    · simp only [apply_ite UInt8.toNat, UInt8.reduceToNat]
      split <;> omega
    · simp only [continued_cons, continued_nil]
      omega
  · obtain ⟨first, first_eq⟩ := exists_byte (0xF0 + code / 0x40000) (by omega)
    obtain ⟨second, second_eq⟩ := exists_byte (0x80 + code / 0x1000 % 0x40) (by omega)
    obtain ⟨third, third_eq⟩ := exists_byte (0x80 + code / 0x40 % 0x40) (by omega)
    have thirdContinues : IsContinuation third := ⟨by omega, by omega⟩
    refine ⟨first, second, [third, last], _, by
      rw [begin?_eq, if_neg (by omega), if_neg (by omega), if_neg (by omega), if_pos (by omega)],
      ⟨rfl, ?_, ?_, by simp [thirdContinues, lastContinues]⟩, ?_⟩
    · simp only [apply_ite UInt8.toNat, UInt8.reduceToNat]
      split <;> omega
    · simp only [apply_ite UInt8.toNat, UInt8.reduceToNat]
      split <;> omega
    · simp only [continued_cons, continued_nil]
      omega

section Decoding

variable (offset : Nat) (c : Char) (bytes rest : List UInt8)

theorem decodeFrom_utf8EncodeChar :
    decodeFrom offset none (String.utf8EncodeChar c ++ rest) =
      (decodeFrom (offset + (String.utf8EncodeChar c).length) none rest).map (c :: ·) := by
  by_cases large : 0x80 ≤ c.toNat
  · obtain ⟨first, byte, tail, pending, begins, completes, code⟩ := exists_sequence large offset
    have encoded := utf8EncodeChar_sequence begins completes
    rw [← code, Char.ofNat_toNat] at encoded
    have notPlain : ¬ first < 0x80 := by
      intro plain
      rw [begin?_eq, if_pos] at begins
      · cases begins
      · exact Nat.lt_trans (UInt8.lt_iff_toNat_lt.mp plain) (by decide)
    have offsets : offset + (tail.length + 1 + 1) = offset + 1 + (tail.length + 1) := by omega
    rw [encoded, List.cons_append, List.cons_append, decodeFrom, if_neg notPlain, begins]
    simp only [decodeFrom_complete completes, ← code, Char.ofNat_toNat, List.length_cons, offsets]
  · have small : c.val.toNat ≤ 127 := by
      rw [Char.toNat] at large
      omega
    have byte : (UInt8.ofNat c.val.toNat).toNat = c.val.toNat :=
      UInt8.toNat_ofNat_of_lt' (Nat.lt_of_le_of_lt small (by decide))
    have plain : UInt8.ofNat c.val.toNat < 0x80 := by
      rw [UInt8.lt_iff_toNat_lt, byte]
      exact Nat.lt_succ_of_le small
    rw [String.utf8EncodeChar, if_pos small, List.cons_append, decodeFrom, if_pos plain, byte]
    rw [← Char.toNat, Char.ofNat_toNat]
    rfl

theorem decodeFrom_encode (text : List Char) :
    decodeFrom offset none (encode text ++ rest) =
      (decodeFrom (offset + (encode text).length) none rest).map (text ++ ·) := by
  induction text generalizing offset with
  | nil =>
    show decodeFrom offset none rest = (decodeFrom offset none rest).map id
    cases decodeFrom offset none rest <;> rfl
  | cons c text ih =>
    rw [encode_cons, List.append_assoc, decodeFrom_utf8EncodeChar, ih,
      List.length_append, Nat.add_assoc]
    cases decodeFrom (offset + ((String.utf8EncodeChar c).length + (encode text).length)) none rest
      <;> rfl

/-- Bytes that are left begin with the encoding of a character, or are refused at
once. -/
theorem decodeFrom_front (some_left : bytes ≠ []) :
    (∃ reason, decodeFrom offset none bytes = .error ⟨reason, offset⟩) ∨
      ∃ c rest, bytes = String.utf8EncodeChar c ++ rest := by
  obtain ⟨first, bytes, rfl⟩ := List.exists_cons_of_ne_nil some_left
  by_cases plain : first < 0x80
  · have small : first.toNat ≤ 127 := Nat.le_of_lt_succ (UInt8.lt_iff_toNat_lt.mp plain)
    have valid : first.toNat.isValidChar := Or.inl (by omega)
    refine Or.inr ⟨Char.ofNat first.toNat, bytes, ?_⟩
    rw [String.utf8EncodeChar, val_toNat_ofNat valid, if_pos small, UInt8.ofNat_toNat]
    rfl
  · rw [decodeFrom, if_neg plain]
    cases begins : begin? offset first with
    | none => exact Or.inl ⟨.badStart, rfl⟩
    | some pending =>
      have start : pending.start = offset := by
        rw [begin?_eq] at begins
        grind
      have owes : 0 < pending.owed := by
        rw [begin?_eq] at begins
        grind
      rcases decodeFrom_pending (offset + 1) owes bytes with
        ⟨reason, refused⟩ | ⟨byte, tail, rest, rfl, completes⟩
      · exact Or.inl ⟨reason, by rw [← start]; exact start ▸ refused⟩
      · exact Or.inr ⟨_, rest, by rw [utf8EncodeChar_sequence begins completes]; rfl⟩

/-- Decoding reads characters as far as the bytes encode some, and there it ends or
reports. -/
theorem exists_decodeFrom_eq :
    ∃ text rest, bytes = encode text ++ rest ∧
      (rest = [] ∧ decodeFrom offset none bytes = .ok text ∨
        ∃ reason, decodeFrom offset none bytes =
          .error ⟨reason, offset + (encode text).length⟩) := by
  -- By the number of bytes left: a front is read off, and it is never empty.
  induction length : bytes.length using Nat.strongRecOn generalizing offset bytes with
  | _ size ih =>
    by_cases none_left : bytes = []
    · exact ⟨[], [], none_left, Or.inl ⟨rfl, by rw [none_left, decodeFrom]⟩⟩
    rcases decodeFrom_front offset bytes none_left with ⟨reason, refused⟩ | ⟨c, left, rfl⟩
    · exact ⟨[], bytes, rfl, Or.inr ⟨reason, refused⟩⟩
    have shorter : left.length < size := by
      rw [← length, List.length_append]
      have := String.length_utf8EncodeChar c
      have := Char.utf8Size_pos c
      omega
    obtain ⟨text, rest, rfl, outcome⟩ :=
      ih _ shorter (offset + (String.utf8EncodeChar c).length) left rfl
    refine ⟨c :: text, rest, ?_, ?_⟩
    · rw [encode_cons, List.append_assoc]
    rw [decodeFrom_utf8EncodeChar]
    rcases outcome with ⟨done, read⟩ | ⟨reason, refused⟩
    · exact Or.inl ⟨done, by rw [read]; rfl⟩
    · refine Or.inr ⟨reason, ?_⟩
      rw [refused, encode_cons, List.length_append, Nat.add_assoc]
      rfl

end Decoding

section Decode

variable {bytes : List UInt8} {text : List Char} {fault : Fault}

theorem decode_eq_ok_iff : decode bytes = .ok text ↔ bytes = encode text := by
  constructor
  · intro read
    obtain ⟨found, rest, split, ⟨rfl, same⟩ | ⟨reason, refused⟩⟩ := exists_decodeFrom_eq 0 bytes
    · rw [decode, same] at read
      rw [split, List.append_nil, Except.ok.inj read]
    · rw [decode, refused] at read
      cases read
  · rintro rfl
    have read := decodeFrom_encode 0 [] text
    rw [List.append_nil] at read
    rw [decode, read, decodeFrom, Except.map, List.append_nil]

theorem exists_decode_eq_ok_iff : (∃ text, decode bytes = .ok text) ↔ Valid bytes :=
  exists_congr fun _ => decode_eq_ok_iff

/-- The longest part at the front of the bytes that encodes a text. -/
structure LongestValid (front bytes : List UInt8) : Prop where
  starts : front <+: bytes
  valid : Valid front
  longest : ∀ other, other <+: bytes → Valid other → other.length ≤ front.length

theorem longestValid_of_decode_eq_error (refused : decode bytes = .error fault) :
    ∃ front, LongestValid front bytes ∧ fault.offset = front.length := by
  obtain ⟨text, rest, split, ⟨-, read⟩ | ⟨reason, found⟩⟩ := exists_decodeFrom_eq 0 bytes
  · rw [decode, read] at refused
    cases refused
  rw [decode, found] at refused
  obtain rfl := Except.error.inj refused
  refine ⟨encode text, ⟨⟨rest, split.symm⟩, ⟨text, rfl⟩, ?_⟩, by simp⟩
  rintro _ ⟨more, rfl⟩ ⟨other, rfl⟩
  -- Decoding goes through the other part first, so it reports behind it.
  rw [decodeFrom_encode] at found
  obtain ⟨further, -, -, ⟨-, read⟩ | ⟨later, read⟩⟩ :=
    exists_decodeFrom_eq (0 + (encode other).length) more
  · rw [read] at found
    cases found
  · rw [read] at found
    have offsets := congrArg Fault.offset (Except.error.inj found)
    simp only [Nat.zero_add] at offsets
    omega

end Decode

end SchemaLint.Text.Utf8
