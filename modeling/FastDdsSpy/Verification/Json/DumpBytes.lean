import FastDdsSpy.Model.JsonBytes

/-! # Strings that are dumped as bytes

The table of `decode` is a reader of UTF-8. From this, `dump_escaped` writes the escapes of the
text that the bytes encode, never writes outside its buffer, and throws at the first byte that
rules every text out. -/

namespace FastDdsSpy.Json

open Utf8

/-! ## The table -/

/-- The bytes that are missing in a state. The state 1 rejects. -/
def pendingOf : ℕ → Option (List (ℕ × ℕ))
  | 0 => some []
  | 2 => some [tail]
  | 3 => some [tail, tail]
  | 4 => some [(0xA0, 0xBF), tail]
  | 5 => some [(0x80, 0x9F), tail]
  | 6 => some [(0x90, 0xBF), tail, tail]
  | 7 => some [tail, tail, tail]
  | 8 => some [(0x80, 0x8F), tail, tail]
  | _ => none

/-- What a byte leaves missing. -/
def pendingAfter (pending : List (ℕ × ℕ)) (byte : ℕ) : Option (List (ℕ × ℕ)) :=
  match pending with
  | [] => trailing byte
  | range :: ranges => if range.1 ≤ byte ∧ byte ≤ range.2 then some ranges else none

theorem utf8d_next : ∀ state < 9, ∀ byte < 256, ∀ pending ∈ pendingOf state,
    pendingOf (utf8d.getD (256 + state * 16 + utf8d.getD byte 0) 0) = pendingAfter pending byte ∧
      (pendingAfter pending byte = none →
        utf8d.getD (256 + state * 16 + utf8d.getD byte 0) 0 = 1) := by
  decide +kernel

theorem utf8d_type : ∀ byte < 256, utf8d.getD byte 0 < 32 ∧
    (trailing byte ≠ none → (0xFF >>> utf8d.getD byte 0) &&& byte = leading byte) := by
  decide +kernel

theorem lt_of_pendingOf {state : ℕ} {pending : List (ℕ × ℕ)} (h : pendingOf state = some pending) :
    state < 9 := by
  unfold pendingOf at h
  split at h
  all_goals first | omega | cases h

theorem eq_zero_iff_of_pendingOf {state : ℕ} {pending : List (ℕ × ℕ)}
    (h : pendingOf state = some pending) : state = 0 ↔ pending = [] := by
  unfold pendingOf at h
  split at h <;> cases h <;> simp

theorem ne_one_of_pendingOf {state : ℕ} {pending : List (ℕ × ℕ)}
    (h : pendingOf state = some pending) : state ≠ 1 := by
  intro hone
  rw [hone] at h
  cases h

/-! ## The code point -/

theorem decode_codepoint_start {byte : UInt8} {ranges : List (ℕ × ℕ)} (codep : UInt32)
    (h : trailing byte.toNat = some ranges) :
    (decode 0 codep byte).2.toNat = leading byte.toNat := by
  obtain ⟨htype, hleading⟩ := utf8d_type byte.toNat byte.toNat_lt
  have htoNat : (UInt32.ofNat (utf8d.getD byte.toNat 0)).toNat % 32 = utf8d.getD byte.toNat 0 := by
    rw [UInt32.toNat_ofNat']
    omega
  simp only [decode, ne_eq, not_true_eq_false, if_false, UInt32.toNat_and, UInt32.toNat_shiftRight,
    htoNat, UInt8.toNat_toUInt32]
  exact hleading (by simp [h])

theorem decode_codepoint_extend {state : ℕ} (hstate : state ≠ 0) {codep : UInt32}
    (h : codep.toNat < 2 ^ 24) (byte : UInt8) :
    (decode state codep byte).2.toNat = extend codep.toNat byte := by
  have hbits : (0x3F : UInt32).toNat = 2 ^ 6 - 1 := rfl
  have hshift : codep.toNat <<< 6 % 2 ^ 32 = 2 ^ 6 * codep.toNat := by
    rw [Nat.shiftLeft_eq]
    omega
  simp only [decode, if_pos hstate, UInt32.toNat_or, UInt32.toNat_and, UInt32.toNat_shiftLeft,
    UInt8.toNat_toUInt32, hbits, Nat.and_two_pow_sub_one_eq_mod]
  change byte.toNat % 2 ^ 6 ||| codep.toNat <<< 6 % 2 ^ 32 = codep.toNat * 64 + byte.toNat % 64
  rw [hshift, Nat.or_comm, ← Nat.two_pow_add_eq_or_of_lt (Nat.mod_lt _ (by decide))]
  omega

/-! ## One byte -/

/-- What is written for a code point, whose last byte is given. -/
def codepointOutput (codepoint : ℕ) (byte : UInt8) : Bytes :=
  match codepoint with
  | 0x08 => ascii ['\\', 'b']
  | 0x09 => ascii ['\\', 't']
  | 0x0A => ascii ['\\', 'n']
  | 0x0C => ascii ['\\', 'f']
  | 0x0D => ascii ['\\', 'r']
  | 0x22 => ascii ['\\', '"']
  | 0x5C => ascii ['\\', '\\']
  | n => if n ≤ 0x1F then ascii (['\\', 'u'] ++ hex4 n) else [byte]

theorem storeBytes_eq {stringBuffer bytes : Bytes} {terminator : ℕ}
    (h : stringBuffer.length + bytes.length + terminator ≤ 512) :
    storeBytes stringBuffer bytes terminator = .ok (stringBuffer ++ bytes) :=
  if_pos h

/-- Seven characters of the buffer are enough for a code point. -/
theorem storeCodepoint_eq {stringBuffer : Bytes} (h : stringBuffer.length ≤ 505)
    (codepoint : UInt32) (byte : UInt8) :
    storeCodepoint stringBuffer codepoint byte =
      .ok (stringBuffer ++ codepointOutput codepoint.toNat byte) := by
  have hle : codepoint ≤ 0x1F ↔ codepoint.toNat ≤ 0x1F := UInt32.le_iff_toNat_le
  unfold storeCodepoint
  simp only [hle]
  generalize codepoint.toNat = n
  split
  case h_8 =>
      rw [codepointOutput]
      · split
        · apply storeBytes_eq
          simp only [ascii, hex4, List.length_map, List.length_append, List.length_cons,
            List.length_nil]
          omega
        · apply storeBytes_eq
          simp only [List.length_cons, List.length_nil]
          omega
      all_goals assumption
  all_goals
    apply storeBytes_eq
    simp only [ascii, List.length_map, List.length_cons, List.length_nil]
    omega

theorem length_codepointOutput_le (codepoint : ℕ) (byte : UInt8) :
    (codepointOutput codepoint byte).length ≤ 6 := by
  unfold codepointOutput
  split
  case h_8 =>
      split
      · simp [ascii, hex4]
      · simp
  all_goals simp [ascii]

/-- All that was written so far. -/
def Serializer.output (s : Serializer) : Bytes := s.written ++ s.stringBuffer

/-- The serializer has read the same bytes as the reader, and has room for what is missing. -/
structure Follows (s : Serializer) (r : Reader) : Prop where
  state : pendingOf s.state = some r.pending
  codepoint : r.pending ≠ [] → s.codepoint.toNat = r.value
  value_lt : r.value < 64 ^ (4 - r.pending.length)
  pending_le : r.pending.length ≤ 3
  room : s.stringBuffer.length + r.pending.length ≤ 503
  room_start : r.pending = [] → s.stringBuffer.length ≤ 499

theorem flush_state (s : Serializer) : s.flush.state = s.state := by
  unfold Serializer.flush
  split <;> rfl

theorem flush_output (s : Serializer) : s.flush.output = s.output := by
  unfold Serializer.flush
  split
  · simp [Serializer.output]
  · rfl

theorem flush_length (s : Serializer) (h : s.stringBuffer.length ≤ 512) :
    s.flush.stringBuffer.length ≤ 499 := by
  unfold Serializer.flush stringBufferSize
  split
  · simp
  · next hroom => omega

/-- What is written for one byte, after which the reader is `r`. -/
def byteOutput (r : Reader) (byte : UInt8) : Bytes :=
  if r.pending = [] then codepointOutput r.value byte else [byte]

variable {s : Serializer} {r r' : Reader} {byte : UInt8}

theorem pendingAfter_eq (r : Reader) (byte : UInt8) :
    pendingAfter r.pending byte.toNat = (next r byte).map Reader.pending := by
  obtain ⟨pending, value⟩ := r
  cases pending with
  | nil =>
      rw [next_of_pending_nil rfl, Option.map_map]
      exact Option.map_id'.symm
  | cons range ranges =>
      rw [next_cons, pendingAfter]
      by_cases hin : InRange range byte
      · rw [if_pos hin, if_pos (show _ ∧ _ from hin)]
        rfl
      · rw [if_neg hin, if_neg (show ¬ (_ ∧ _) from hin)]
        rfl

theorem decode_state (h : Follows s r) (byte : UInt8) :
    pendingOf (decode s.state s.codepoint byte).1 = (next r byte).map Reader.pending ∧
      (next r byte = none → (decode s.state s.codepoint byte).1 = 1) := by
  have htable := utf8d_next s.state (lt_of_pendingOf h.state) byte.toNat byte.toNat_lt r.pending
    h.state
  rw [pendingAfter_eq, Option.map_eq_none_iff] at htable
  exact htable

theorem leading_lt : ∀ byte < 256, ∀ ranges ∈ trailing byte,
    leading byte < 64 ^ (4 - ranges.length) ∧ ranges.length ≤ 3 := by
  decide +kernel

theorem next_value_lt (h : Follows s r) (hnext : next r byte = some r') :
    r'.value < 64 ^ (4 - r'.pending.length) ∧ r'.pending.length ≤ 3 := by
  have hvalue := h.value_lt
  have hlength := h.pending_le
  obtain ⟨pending, value⟩ := r
  cases pending with
  | nil =>
      rw [next_of_pending_nil rfl] at hnext
      obtain ⟨ranges, hranges, rfl⟩ := Option.map_eq_some_iff.mp hnext
      exact leading_lt byte.toNat byte.toNat_lt ranges hranges
  | cons range ranges =>
      rw [next_cons] at hnext
      split at hnext
      · cases hnext
        simp only [List.length_cons] at hvalue hlength ⊢
        refine ⟨?_, by omega⟩
        rw [show 4 - ranges.length = 4 - (ranges.length + 1) + 1 by omega, Nat.pow_succ, extend]
        omega
      · cases hnext

theorem decode_codepoint (h : Follows s r) (hnext : next r byte = some r') :
    (decode s.state s.codepoint byte).2.toNat = r'.value := by
  by_cases hpending : r.pending = []
  · rw [(eq_zero_iff_of_pendingOf h.state).mpr hpending]
    rw [next_of_pending_nil hpending] at hnext
    obtain ⟨ranges, hranges, rfl⟩ := Option.map_eq_some_iff.mp hnext
    exact decode_codepoint_start s.codepoint hranges
  · have hcodepoint := h.codepoint hpending
    have hlt : s.codepoint.toNat < 2 ^ 24 := by
      rw [hcodepoint]
      exact h.value_lt.trans_le (Nat.pow_le_pow_right (by decide) (Nat.sub_le 4 _))
    rw [decode_codepoint_extend (mt (eq_zero_iff_of_pendingOf h.state).mp hpending) hlt,
      hcodepoint]
    unfold next at hnext
    split at hnext
    · next hnil => exact absurd hnil hpending
    · split at hnext
      · cases hnext
        rfl
      · cases hnext

/-- A byte that no text can have there. -/
theorem dumpByte_of_next_none (h : Follows s r) (hnext : next r byte = none) (i : ℕ) :
    dumpByte s i byte = .error (.invalidByte i byte) := by
  have hone := (decode_state h byte).2 hnext
  unfold dumpByte
  split
  · next hdecode => simp [hdecode] at hone
  · rfl
  · next hnot hdecode =>
      rw [hdecode] at hone
      exact absurd hone hnot

theorem length_pending_of_next (hpending : r.pending ≠ []) (hnext : next r byte = some r') :
    r'.pending.length + 1 = r.pending.length := by
  unfold next at hnext
  split at hnext
  · next hnil => exact absurd hnil hpending
  · next range ranges hcons =>
      split at hnext
      · cases hnext
        rw [hcons, List.length_cons]
      · cases hnext

/-- A byte that some text has there. -/
theorem dumpByte_of_next (h : Follows s r) (hnext : next r byte = some r') (i : ℕ) :
    ∃ s', dumpByte s i byte = .ok s' ∧ Follows s' r' ∧
      s'.output = s.output ++ byteOutput r' byte := by
  have hstate := (decode_state h byte).1
  have hcodepoint := decode_codepoint h hnext
  obtain ⟨hvalue, hlength⟩ := next_value_lt h hnext
  have hroom := h.room
  rw [hnext, Option.map_some] at hstate
  have hzero := eq_zero_iff_of_pendingOf hstate
  unfold dumpByte
  split
  · next codepoint hdecode =>
      rw [hdecode] at hstate hcodepoint hzero
      have hpending : r'.pending = [] := hzero.mp rfl
      have houtput := length_codepointOutput_le codepoint.toNat byte
      rw [storeCodepoint_eq (by omega)]
      refine ⟨_, rfl, ⟨?_, fun hne => absurd hpending hne, hvalue, hlength, ?_, fun _ => ?_⟩, ?_⟩
      · rw [flush_state]
        exact hstate
      · rw [hpending]
        exact (flush_length _ (by simp only [List.length_append]; omega)).trans (by decide)
      · exact flush_length _ (by simp only [List.length_append]; omega)
      · rw [flush_output, byteOutput, if_pos hpending, ← hcodepoint]
        simp [Serializer.output]
  · next hdecode =>
      rw [hdecode] at hstate
      exact absurd rfl (ne_one_of_pendingOf hstate)
  · next state codepoint hnot _ hdecode =>
      rw [hdecode] at hstate hcodepoint hzero
      have hpending : r'.pending ≠ [] := fun hnil => hnot (hzero.mpr hnil)
      rw [storeBytes_eq (by simp only [List.length_singleton]; omega)]
      refine ⟨_, rfl, ⟨hstate, fun _ => hcodepoint, hvalue, hlength, ?_,
        fun hnil => absurd hnil hpending⟩, ?_⟩
      · simp only [List.length_append, List.length_singleton]
        by_cases hstart : r.pending = []
        · have hroom := h.room_start hstart
          omega
        · have hless := length_pending_of_next hstart hnext
          omega
      · rw [byteOutput, if_neg hpending]
        simp [Serializer.output]

/-! ## The loop -/

/-- What is written for the bytes after those that the reader has read. -/
def bytesOutput (r : Reader) : Bytes → Bytes
  | [] => []
  | byte :: bytes =>
    match next r byte with
    | some r => byteOutput r byte ++ bytesOutput r bytes
    | none => []

theorem dumpBytes_of_read {bytes : Bytes} (h : Follows s r) (hread : read r bytes = some r')
    (i : ℕ) :
    ∃ s', dumpBytes s i bytes = .ok s' ∧ Follows s' r' ∧
      s'.output = s.output ++ bytesOutput r bytes := by
  induction bytes generalizing s r i with
  | nil =>
      cases hread
      exact ⟨s, rfl, h, (List.append_nil _).symm⟩
  | cons byte bytes ih =>
      rw [read_cons] at hread
      obtain ⟨r₁, hnext, hread⟩ := Option.bind_eq_some_iff.mp hread
      obtain ⟨s₁, hbyte, hfollows, houtput⟩ := dumpByte_of_next h hnext i
      obtain ⟨s', hbytes, hend, houtput'⟩ := ih hfollows hread (i + 1)
      refine ⟨s', ?_, hend, ?_⟩
      · rw [dumpBytes, hbyte]
        exact hbytes
      · rw [houtput', houtput, bytesOutput, hnext, List.append_assoc]

theorem dumpBytes_append (s : Serializer) (i : ℕ) (bytes bytes' : Bytes) :
    dumpBytes s i (bytes ++ bytes') =
      (dumpBytes s i bytes).bind fun s => dumpBytes s (i + bytes.length) bytes' := by
  induction bytes generalizing s i with
  | nil => rfl
  | cons byte bytes ih =>
      rw [List.cons_append, dumpBytes, dumpBytes]
      cases dumpByte s i byte with
      | error e => rfl
      | ok s₁ =>
          have hrest := ih s₁ (i + 1)
          rwa [Nat.add_assoc, Nat.add_comm 1] at hrest

/-- The first byte that cannot be read stops the loop. -/
theorem dumpBytes_of_next_none {pre : Bytes} (h : Follows s r) (hpre : read r pre = some r')
    (hnext : next r' byte = none) (i : ℕ) (post : Bytes) :
    dumpBytes s i (pre ++ byte :: post) = .error (.invalidByte (i + pre.length) byte) := by
  obtain ⟨s', hbytes, hfollows, -⟩ := dumpBytes_of_read h hpre i
  rw [dumpBytes_append, hbytes]
  change dumpBytes s' (i + pre.length) (byte :: post) = _
  rw [dumpBytes, dumpByte_of_next_none hfollows hnext]

theorem follows_start : Follows {} .start where
  state := rfl
  codepoint h := absurd rfl h
  value_lt := by decide
  pending_le := by decide
  room := by decide
  room_start _ := by decide

/-! ## Texts -/

theorem codepointOutput_of_lt {n : ℕ} (h : 0x7F < n) (byte : UInt8) :
    codepointOutput n byte = [byte] := by
  rw [codepointOutput, if_neg (by omega)]
  all_goals omega

theorem escape_of_lt {c : Char} (h : 0x7F < c.toNat) : escape c = [c] := by
  rw [escape, if_neg (by omega)]
  all_goals
    intro hc
    rw [hc] at h
    exact absurd h (by decide)

/-- The characters of one byte. -/
theorem codepointOutput_ascii : ∀ n < 0x80,
    codepointOutput n (UInt8.ofNat n) = encode (escape (Char.ofNat n)) := by
  decide +kernel

theorem bytesOutput_pending {range : ℕ × ℕ} {ranges : List (ℕ × ℕ)} {bytes : Bytes} (value : ℕ)
    (h : List.Forall₂ InRange (range :: ranges) bytes) (hvalue : 0x7F < bytes.foldl extend value)
    (rest : Bytes) :
    bytesOutput ⟨range :: ranges, value⟩ (bytes ++ rest) =
      bytes ++ bytesOutput ⟨[], bytes.foldl extend value⟩ rest := by
  induction ranges generalizing range bytes value with
  | nil =>
      match bytes, h with
      | [byte], .cons hb .nil =>
          rw [List.singleton_append, bytesOutput, next_cons, if_pos hb]
          have hvalue : 0x7F < extend value byte := hvalue
          change codepointOutput (extend value byte) byte ++ _ = _
          rw [codepointOutput_of_lt hvalue]
          rfl
  | cons range' ranges ih =>
      match bytes, h with
      | byte :: bytes, .cons hb hbytes =>
          rw [List.cons_append, bytesOutput, next_cons, if_pos hb, List.foldl_cons,
            List.cons_append, ← ih _ hbytes hvalue]
          rfl

/-- The bytes of a character write its escape. -/
theorem bytesOutput_utf8EncodeChar (hpending : r.pending = []) (c : Char) (rest : Bytes) :
    ∃ r' : Reader, r'.pending = [] ∧
      bytesOutput r (String.utf8EncodeChar c ++ rest) =
        encode (escape c) ++ bytesOutput r' rest := by
  cases hc : String.utf8EncodeChar c with
  | nil => exact absurd hc String.utf8EncodeChar_ne_nil
  | cons first bytes =>
      obtain ⟨ranges, hranges, hin⟩ := (wellFormed_iff.mpr ⟨c, hc⟩).exists_ranges
      have hvalue := codePoint_utf8EncodeChar hc
      refine ⟨⟨[], codePoint first bytes⟩, rfl, ?_⟩
      rw [List.cons_append, bytesOutput, next_of_pending_nil hpending, hranges]
      cases ranges with
      | nil =>
          cases hin
          have hfirst : first.toNat = c.toNat := by
            rw [← hvalue, codePoint, List.foldl_nil, leading, if_pos (le_of_trailing_nil hranges)]
          have hlt : c.toNat < 0x80 := by
            have hle := le_of_trailing_nil hranges
            omega
          have houtput := codepointOutput_ascii c.toNat hlt
          rw [Char.ofNat_toNat, ← hfirst, UInt8.ofNat_toNat, hfirst, ← hvalue] at houtput
          rw [← houtput]
          rfl
      | cons range ranges =>
          have hlt : 0x7F < c.toNat := by
            by_contra hle
            rw [utf8EncodeChar_eq, bytesOf, if_pos (not_lt.mp hle)] at hc
            cases hc
            cases hin
          have hrest := bytesOutput_pending (leading first.toNat) hin
            (by rw [← hvalue] at hlt; exact hlt) rest
          rw [escape_of_lt hlt, encode_cons, encode_nil, List.append_nil, hc, List.cons_append]
          exact congrArg (first :: ·) hrest

theorem bytesOutput_encode (hpending : r.pending = []) (text : Text) :
    bytesOutput r (encode text) = encode (text.flatMap escape) := by
  induction text generalizing r with
  | nil => rfl
  | cons c text ih =>
      obtain ⟨r', hr', houtput⟩ := bytesOutput_utf8EncodeChar hpending c (encode text)
      rw [encode_cons, houtput, ih hr', List.flatMap_cons, encode_append]

/-! ## Every string -/

/-- How `dump_escaped` ends, on any bytes: with the escapes of the text that they encode, or with
an exception that names the first byte that rules every text out, or the last byte if the text
is not complete. -/
inductive Dumps (bytes : Bytes) : Except DumpError Bytes → Prop
  | text (text : Text) (h : encode text = bytes) :
      Dumps bytes (.ok (encode (text.flatMap escape)))
  | invalid (pre post : Bytes) (byte : UInt8) (h : bytes = pre ++ byte :: post)
      (hpre : Viable pre) (hbyte : ¬ Viable (pre ++ [byte])) :
      Dumps bytes (.error (.invalidByte pre.length byte))
  | incomplete (last : UInt8) (h : Viable bytes) (htext : ∀ text, encode text ≠ bytes)
      (hlast : bytes.getLast? = some last) : Dumps bytes (.error (.incomplete last))

theorem dumpEscaped_of_dumps {bytes : Bytes} {result : Except DumpError Bytes}
    (h : Dumps bytes result) : dumpEscaped bytes = result := by
  cases h with
  | text text h =>
      rw [← h]
      obtain ⟨r, hread, hpending⟩ := read_encode (r := .start) rfl text
      obtain ⟨s, hbytes, hfollows, houtput⟩ := dumpBytes_of_read follows_start hread 0
      rw [dumpEscaped, hbytes]
      simp only [(eq_zero_iff_of_pendingOf hfollows.state).mpr hpending, if_true]
      rw [bytesOutput_encode rfl] at houtput
      exact congrArg Except.ok houtput
  | invalid pre post byte h hpre hbyte =>
      rw [h]
      obtain ⟨r, hread⟩ := Option.isSome_iff_exists.mp (isSome_read_iff.mpr hpre)
      have hnext : next r byte = none := by
        rw [← isSome_read_iff, read_append, hread] at hbyte
        simpa using hbyte
      rw [dumpEscaped, dumpBytes_of_next_none follows_start hread hnext, Nat.zero_add]
  | incomplete last h htext hlast =>
      obtain ⟨r, hread⟩ := Option.isSome_iff_exists.mp (isSome_read_iff.mpr h)
      obtain ⟨s, hbytes, hfollows, -⟩ := dumpBytes_of_read follows_start hread 0
      have hpending : r.pending ≠ [] := by
        intro hnil
        obtain ⟨text, hencode⟩ := exists_encode_iff.mpr ⟨r, hread, hnil⟩
        exact htext text hencode
      rw [dumpEscaped, hbytes]
      simp only [mt (eq_zero_iff_of_pendingOf hfollows.state).mp hpending, if_false]
      rw [List.getLastD_eq_getLast?, hlast]
      rfl

theorem dumps_dumpEscaped (bytes : Bytes) : Dumps bytes (dumpEscaped bytes) := by
  cases hread : read .start bytes with
  | none =>
      obtain ⟨pre, byte, post, rfl, hpre, hbyte⟩ := exists_of_read_none hread
      have hdumps : Dumps (pre ++ byte :: post) (.error (.invalidByte pre.length byte)) := by
        refine .invalid pre post byte rfl (isSome_read_iff.mp hpre) ?_
        rw [← isSome_read_iff, hbyte]
        exact Bool.false_ne_true
      rw [dumpEscaped_of_dumps hdumps]
      exact hdumps
  | some r =>
      by_cases htext : ∃ text, encode text = bytes
      · obtain ⟨text, htext⟩ := htext
        rw [dumpEscaped_of_dumps (.text text htext)]
        exact .text text htext
      · have hviable : Viable bytes := isSome_read_iff.mp (by rw [hread]; rfl)
        cases hlast : bytes.getLast? with
        | none => exact absurd ⟨[], (List.getLast?_eq_none_iff.mp hlast).symm⟩ htext
        | some last =>
            have hdumps : Dumps bytes (.error (.incomplete last)) :=
              .incomplete last hviable (not_exists.mp htext) hlast
            rw [dumpEscaped_of_dumps hdumps]
            exact hdumps

/-- `dump_escaped` has exactly these outcomes. A write outside the buffer is none of them. -/
theorem dumpEscaped_eq_iff (bytes : Bytes) (result : Except DumpError Bytes) :
    dumpEscaped bytes = result ↔ Dumps bytes result := by
  constructor
  · intro h
    rw [← h]
    exact dumps_dumpEscaped bytes
  · exact dumpEscaped_of_dumps

end FastDdsSpy.Json
