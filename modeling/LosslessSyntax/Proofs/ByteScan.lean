import LosslessSyntax.Trivia.ByteScan
import LosslessSyntax.Proofs.NextPiece

/-!
# Lengths counted in bytes

Counting bytes finds the pieces that reading characters finds. Every cut lies between two characters
(`cutAt?_append`), the length of a line, of a block comment and of unexpected text is that of the piece at the front,
and no comment is closed that was not opened (`blockLen?_block`).
-/

namespace LosslessSyntax.Trivia

theorem pos?_eq_some_iff {text : String} {offset : String.Pos.Raw} {pos : text.Pos} :
    text.pos? offset = some pos ↔ pos.offset = offset := by
  rw [String.pos?, String.Slice.pos?]
  by_cases valid : offset.isValidForSlice text.toSlice
  · rw [dif_pos valid]
    constructor
    · intro same
      cases same
      rfl
    · rintro rfl
      rfl
  · rw [dif_neg valid]
    constructor
    · intro same
      cases same
    · rintro rfl
      exact absurd (String.Pos.Raw.isValidForSlice_eq_true_iff.mpr pos.isValid.toSlice) valid

/-- A cut succeeds exactly at the end of a front part. -/
theorem cutAt?_eq_some_iff {text front back : String} {bytes : Nat} :
    cutAt? text bytes = some (front, back) ↔ front ++ back = text ∧ front.utf8ByteSize = bytes := by
  rw [cutAt?, Option.map_eq_some_iff]
  constructor
  · rintro ⟨pos, found, same⟩
    cases same
    have offset : pos.offset.byteIdx = bytes := by rw [pos?_eq_some_iff.mp found]
    refine ⟨pos.splits.eq_append.symm, ?_⟩
    rw [← offset, pos.splits.offset_eq_rawEndPos, String.byteIdx_rawEndPos]
  · rintro ⟨rfl, rfl⟩
    have valid : front.rawEndPos.IsValid (front ++ back) :=
      String.Pos.Raw.isValid_iff_exists_append.mpr ⟨front, back, rfl, rfl⟩
    have splits : ((front ++ back).pos front.rawEndPos valid).Splits front back := ⟨rfl, rfl⟩
    refine ⟨(front ++ back).pos front.rawEndPos valid, pos?_eq_some_iff.mpr rfl, ?_⟩
    obtain ⟨left, right⟩ := (String.Pos.splits _).eq splits
    rw [left, right]

theorem cutAt?_append (front back : String) : cutAt? (front ++ back) front.utf8ByteSize = some (front, back) :=
  cutAt?_eq_some_iff.mpr ⟨rfl, rfl⟩

theorem utf8ByteSize_one (c : Char) : (String.ofList [c]).utf8ByteSize = c.utf8Size := by
  rw [← String.singleton_eq_ofList, String.utf8ByteSize_singleton]

theorem utf8ByteSize_cons (c : Char) (rest : List Char) :
    (String.ofList (c :: rest)).utf8ByteSize = c.utf8Size + (String.ofList rest).utf8ByteSize := by
  rw [← List.singleton_append, String.ofList_append, String.utf8ByteSize_append, utf8ByteSize_one]

/-- The bytes of a text given by its characters. -/
def bytes (text : List Char) : List UInt8 := text.flatMap String.utf8EncodeChar

theorem utf8_eq (text : String) : utf8 text = bytes text.toList := by
  rw [utf8, ← String.utf8Encode_toList, List.utf8Encode, List.toList_data_toByteArray, bytes]

/-- A byte below 128 stands for a character by itself. -/
theorem toNat_of_mem_utf8EncodeChar {c : Char} {b : UInt8} (member : b ∈ String.utf8EncodeChar c)
    (ascii : b.toNat < 128) : c.toNat = b.toNat := by
  have high {n k : Nat} (low : 128 ≤ k) (fits : n + k < 256) : ¬ (UInt8.ofNat (n + k)).toNat < 128 := by
    rw [UInt8.toNat_ofNat']
    omega
  unfold String.utf8EncodeChar at member
  dsimp only at member
  split at member
  case isTrue small =>
    obtain rfl := List.mem_singleton.mp member
    rw [UInt8.toNat_ofNat']
    change c.toNat = c.toNat % 2 ^ 8
    have : c.toNat ≤ 127 := small
    omega
  case isFalse =>
    exfalso
    split at member
    · simp only [List.mem_cons, List.not_mem_nil, or_false] at member
      rcases member with rfl | rfl <;> exact high (by decide) (by omega) ascii
    · split at member
      · simp only [List.mem_cons, List.not_mem_nil, or_false] at member
        rcases member with rfl | rfl | rfl <;> exact high (by decide) (by omega) ascii
      · simp only [List.mem_cons, List.not_mem_nil, or_false] at member
        rcases member with rfl | rfl | rfl | rfl <;> exact high (by decide) (by omega) ascii

theorem eq_slash_of_mem {c : Char} (member : 47 ∈ String.utf8EncodeChar c) : c = '/' :=
  Char.toNat_inj.mp (toNat_of_mem_utf8EncodeChar member (by decide))

theorem eq_star_of_mem {c : Char} (member : 42 ∈ String.utf8EncodeChar c) : c = '*' :=
  Char.toNat_inj.mp (toNat_of_mem_utf8EncodeChar member (by decide))

/-- The first byte of a text is one of its first character. -/
theorem exists_head_of_bytes {text : List Char} {b : UInt8} {more : List UInt8} (head : bytes text = b :: more) :
    ∃ c rest, text = c :: rest ∧ b ∈ String.utf8EncodeChar c := by
  cases text with
  | nil => cases head
  | cons c rest =>
    rw [bytes, List.flatMap_cons] at head
    cases encoded : String.utf8EncodeChar c with
    | nil => exact absurd encoded String.utf8EncodeChar_ne_nil
    | cons b' inner =>
      rw [encoded] at head
      cases head
      exact ⟨c, rest, rfl, by rw [encoded]; exact List.mem_cons_self⟩

/-- Bytes that are neither slash nor star are passed. -/
theorem blockLen?_pass {front : List UInt8} (plain : 47 ∉ front ∧ 42 ∉ front) (depth pos : Nat)
    (rest : List UInt8) : blockLen? depth pos (front ++ rest) = blockLen? depth (pos + front.length) rest := by
  induction front generalizing pos with
  | nil => rfl
  | cons b front ih =>
    rw [List.mem_cons, List.mem_cons, not_or, not_or] at plain
    obtain ⟨⟨slash, noSlash⟩, star, noStar⟩ := plain
    rw [List.cons_append, blockLen?, ih ⟨noSlash, noStar⟩, List.length_cons, Nat.add_assoc, Nat.add_comm 1]
    · rintro more rfl; exact absurd rfl slash
    · rintro more rfl; exact absurd rfl star

/-- A character that begins no pair is passed with all its bytes. -/
theorem blockLen?_char {c : Char} {rest : List Char} (opening : ¬ (c = '/' ∧ rest.head? = some '*'))
    (closing : ¬ (c = '*' ∧ rest.head? = some '/')) (depth pos : Nat) :
    blockLen? depth pos (bytes (c :: rest)) = blockLen? depth (pos + c.utf8Size) (bytes rest) := by
  have star {more : List UInt8} (head : bytes rest = 42 :: more) : rest.head? = some '*' := by
    obtain ⟨d, after, rfl, member⟩ := exists_head_of_bytes head
    rw [eq_star_of_mem member, List.head?_cons]
  have slash {more : List UInt8} (head : bytes rest = 47 :: more) : rest.head? = some '/' := by
    obtain ⟨d, after, rfl, member⟩ := exists_head_of_bytes head
    rw [eq_slash_of_mem member, List.head?_cons]
  have whole : bytes (c :: rest) = String.utf8EncodeChar c ++ bytes rest := List.flatMap_cons
  rw [whole]
  -- a slash or a star is one byte, and what follows it is told from its first byte
  by_cases isSlash : c = '/'
  · subst isSlash
    change blockLen? depth pos (47 :: bytes rest) = blockLen? depth (pos + 1) (bytes rest)
    rw [blockLen?]
    · intro more _ head; exact opening ⟨rfl, star head⟩
    · intro more impossible; cases impossible
  · by_cases isStar : c = '*'
    · subst isStar
      change blockLen? depth pos (42 :: bytes rest) = blockLen? depth (pos + 1) (bytes rest)
      rw [blockLen?]
      · intro more impossible; cases impossible
      · intro more _ head; exact closing ⟨rfl, slash head⟩
    · have plain : 47 ∉ String.utf8EncodeChar c ∧ 42 ∉ String.utf8EncodeChar c :=
        ⟨fun member => isSlash (eq_slash_of_mem member), fun member => isStar (eq_star_of_mem member)⟩
      rw [blockLen?_pass plain, String.length_utf8EncodeChar]

/-- With a comment open the bytes are counted up to where the characters end it, and the depth never
falls below zero. -/
theorem blockLen?_eq {depth : Nat} (isOpen : 0 < depth) (pos : Nat) (text : List Char) :
    blockLen? depth pos (bytes text) =
      some (pos + (String.ofList (text.take ((nestingEnd? depth text).getD text.length))).utf8ByteSize) := by
  have shift (end? : Option Nat) (k n : Nat) : (end?.map (· + k)).getD (n + k) = end?.getD n + k := by
    cases end? <;> rfl
  have pair {a b : Char} (one : a.utf8Size = 1) (one' : b.utf8Size = 1) (pos n : Nat) (rest : List Char) :
      pos + 2 + (String.ofList (rest.take n)).utf8ByteSize =
        pos + (String.ofList ((a :: b :: rest).take (n + 2))).utf8ByteSize := by
    rw [List.take_succ_cons, List.take_succ_cons, utf8ByteSize_cons, utf8ByteSize_cons, one, one']
    omega
  have slash : Char.utf8Size '/' = 1 := rfl
  have star : Char.utf8Size '*' = 1 := rfl
  fun_induction nestingEnd? depth text generalizing pos with
  | case1 depth rest ih =>
    change blockLen? (depth + 1) (pos + 2) (bytes rest) = _
    rw [ih (by omega), List.length_cons, List.length_cons, shift, pair slash star]
  | case2 rest => cases isOpen
  | case3 rest => rfl
  | case4 rest further ih =>
    change blockLen? (further + 1) (pos + 2) (bytes rest) = _
    rw [ih (by omega), List.length_cons, List.length_cons, shift, pair star slash]
  | case5 depth c rest opening closing ih =>
    have opening' : ¬ (c = '/' ∧ rest.head? = some '*') := by
      rintro ⟨rfl, head⟩
      obtain ⟨after, rfl⟩ := List.head?_eq_some_iff.mp head
      exact opening after rfl rfl
    have closing' : ¬ (c = '*' ∧ rest.head? = some '/') := by
      rintro ⟨rfl, head⟩
      obtain ⟨after, rfl⟩ := List.head?_eq_some_iff.mp head
      exact closing after rfl rfl
    rw [blockLen?_char opening' closing', ih isOpen, List.length_cons, shift, List.take_succ_cons,
      utf8ByteSize_cons, Nat.add_assoc]
  | case6 depth => rfl

/-- A block comment is measured without closing more than was opened. -/
theorem blockLen?_block (rest : List Char) :
    blockLen? 0 0 (bytes ('/' :: '*' :: rest)) =
      some (String.ofList (cutBlock ('/' :: '*' :: rest)).1).utf8ByteSize := by
  have front : (cutBlock ('/' :: '*' :: rest)).1 =
      '/' :: '*' :: rest.take ((nestingEnd? 1 rest).getD rest.length) := by
    change ('/' :: '*' :: rest).take (blockEnd 0 2 rest) = _
    rw [blockEnd_eq, Nat.add_comm, List.take_succ_cons, List.take_succ_cons]
  have slash : Char.utf8Size '/' = 1 := rfl
  have star : Char.utf8Size '*' = 1 := rfl
  change blockLen? 1 2 (bytes rest) = _
  rw [blockLen?_eq (by decide), front, utf8ByteSize_cons, utf8ByteSize_cons]
  congr 1
  omega

theorem find?_charIndices (found : Char → Bool) (start : Nat) (text : List Char) :
    (((charIndices start text).find? (found ·.2)).map (·.1)).getD (start + (String.ofList text).utf8ByteSize) =
      start + (String.ofList (text.takeWhile (!found ·))).utf8ByteSize := by
  induction text generalizing start with
  | nil => rfl
  | cons c rest ih =>
    rw [charIndices, List.find?_cons, List.takeWhile_cons]
    cases found c with
    | true => rfl
    | false =>
      simp only [Bool.not_false, if_true]
      rw [utf8ByteSize_cons, utf8ByteSize_cons, ← Nat.add_assoc, ih, Nat.add_assoc]

theorem lineLen_eq (text : List Char) :
    lineLen (String.ofList text) = (String.ofList (cutLine text).1).utf8ByteSize := by
  have found := find?_charIndices isLineBreak 0 text
  rw [Nat.zero_add, Nat.zero_add] at found
  rw [lineLen, String.toList_ofList, found]
  rfl

theorem startsTrivia_eq (c : Char) (rest : List Char) :
    startsTrivia (String.ofList (c :: rest)) c = startsPiece (c :: rest) := by
  have split : startsTrivia (String.ofList (c :: rest)) c ↔ startsPiece (c :: rest) := by
    rw [startsPiece_cons, startsTrivia, String.toList_ofList]
    by_cases slash : c = '/'
    · subst slash
      have plain : '/' ∉ runChars := by decide
      rw [if_pos rfl, or_iff_right plain, and_iff_right rfl, decide_eq_true_eq, pair_prefix_iff, pair_prefix_iff,
        and_iff_right rfl, and_iff_right rfl]
    · simp [slash, isSome_ofChar?_iff]
  exact Bool.eq_iff_iff.mpr split

/-- The next piece is looked for at ends of characters only, and found where reading finds it. -/
theorem firstStart?_eq {front middle back : List Char} (unbroken : Unbroken back middle)
    (stop : back = [] ∨ startsPiece back) :
    firstStart? (String.ofList (front ++ (middle ++ back)))
        (charIndices (String.ofList front).utf8ByteSize (middle ++ back)) =
      some (String.ofList (front ++ middle)).utf8ByteSize := by
  have cut (front back : List Char) : cutAt? (String.ofList (front ++ back)) (String.ofList front).utf8ByteSize =
      some (String.ofList front, String.ofList back) := by
    rw [String.ofList_append, cutAt?_append]
  induction middle generalizing front with
  | nil =>
    rw [List.nil_append, List.append_nil]
    cases back with
    | nil =>
      rw [List.append_nil]
      rfl
    | cons c rest =>
      have starts : startsPiece (c :: rest) := stop.resolve_left (List.cons_ne_nil _ _)
      rw [charIndices, firstStart?, cut]
      simp only [Option.bind_eq_bind, Option.bind_some]
      rw [startsTrivia_eq, if_pos starts]
  | cons c middle ih =>
    obtain ⟨plain, inner⟩ := unbroken
    have next : firstStart? (String.ofList ((front ++ [c]) ++ (middle ++ back)))
        (charIndices (String.ofList (front ++ [c])).utf8ByteSize (middle ++ back)) =
          some (String.ofList ((front ++ [c]) ++ middle)).utf8ByteSize := ih inner
    have behind : (String.ofList (front ++ [c])).utf8ByteSize = (String.ofList front).utf8ByteSize + c.utf8Size := by
      rw [String.ofList_append, String.utf8ByteSize_append, utf8ByteSize_one]
    rw [behind, List.append_assoc, List.append_assoc] at next
    rw [List.cons_append, charIndices, firstStart?, cut]
    simp only [Option.bind_eq_bind, Option.bind_some]
    rw [startsTrivia_eq, if_neg plain]
    exact next

theorem unexpectedLen?_eq (c : Char) (rest : List Char) :
    unexpectedLen? (String.ofList (c :: rest)) =
      some (String.ofList (cutUnexpected (c :: rest)).1).utf8ByteSize := by
  obtain ⟨middle, back, rfl, unbroken, stop⟩ := exists_unbroken rest
  have cut : cutUnexpected (c :: (middle ++ back)) = (c :: middle, back) :=
    cutUnexpected_eq_iff.mpr ⟨rfl, unbroken, stop⟩
  have parts : cutAt? (String.ofList (c :: (middle ++ back))) c.utf8Size =
      some (String.ofList [c], String.ofList (middle ++ back)) := by
    rw [← List.singleton_append, String.ofList_append, ← utf8ByteSize_one, cutAt?_append]
  have start : firstStart? (String.ofList ([c] ++ (middle ++ back)))
      (charIndices (String.ofList [c]).utf8ByteSize (middle ++ back)) =
        some (String.ofList ([c] ++ middle)).utf8ByteSize := firstStart?_eq unbroken stop
  rw [utf8ByteSize_one] at start
  rw [cut, unexpectedLen?, String.toList_ofList]
  simp only [List.head?_cons, Option.map_some, Option.getD_some, parts, Option.bind_eq_bind, Option.bind_some,
    String.toList_ofList]
  exact start

theorem utf8ByteSize_of_ofChar? {c : Char} {unit : RunUnit} (found : RunUnit.ofChar? c = some unit) :
    unit.text.utf8ByteSize = 1 := by
  have single : (runChars.all fun d => d.utf8Size = 1) = true := by decide
  have run : c ∈ runChars := isSome_ofChar?_iff.mp (by rw [found]; rfl)
  have size : c.utf8Size = 1 := of_decide_eq_true (List.all_eq_true.mp single c run)
  rw [RunUnit.text_ofChar? found, Char.toString, String.utf8ByteSize_singleton, size]

/-- The bytes counted for a piece end where the text after it begins. -/
theorem cutAt?_nextPiece (c : Char) (rest : List Char) :
    cutAt? (String.ofList (c :: rest)) (nextPiece c rest).1.source.utf8ByteSize =
      some ((nextPiece c rest).1.source, String.ofList (nextPiece c rest).2) := by
  rw [← source_nextPiece, String.ofList_append, String.ofList_toList, cutAt?_append]

end LosslessSyntax.Trivia
