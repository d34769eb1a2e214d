import LayoutPlanner.Json.Parser
import LayoutPlanner.Json.Printer

/-!
# Texts of JSON values

Reading undoes writing.  `Plain` values are those that documents are made of: every number in them
is a natural number that fits a size.  A plain value that is written without blanks is read back
as it is, whatever follows it, as long as the text that follows cannot continue a number
(`Returns`).  Literals and numbers come first; lists and records are then read item by item, with
two units of fuel for each character.
-/

namespace LayoutPlanner.Json

/-! ## Literals -/

/-- The piece stands for the character, whatever comes behind it. -/
def Piece.Shows (piece : Piece) (c : Char) : Prop :=
  ∀ pieces, joinPieces (piece :: pieces) = (joinPieces pieces).map (c :: ·)

theorem Piece.char_shows (c : Char) : (Piece.char c).Shows c := by
  intro pieces
  simp only [joinPieces]
  cases joinPieces pieces <;> rfl

/-- A unit below the surrogates is a character of its own, also in front of another unit. -/
theorem Piece.unit_shows (c : Char) (h : c.toNat < 0xd800) : (Piece.unit c.toNat).Shows c := by
  have hhigh : isHighSurrogate c.toNat = false := by simp [isHighSurrogate]; omega
  have hlow : isLowSurrogate c.toNat = false := by simp [isLowSurrogate]; omega
  intro pieces
  rw [joinPieces.eq_def]
  split
  next heq => cases heq
  next heq => cases heq
  next low rest heq =>
    cases heq
    simp only [hhigh, hlow, Bool.false_eq_true, if_false, Char.ofNat_toNat]
    cases joinPieces (.unit low :: rest) <;> rfl
  next heq =>
    cases heq
    simp only [hhigh, hlow, Bool.or_self, Bool.false_eq_true, if_false, Char.ofNat_toNat]
    cases joinPieces pieces <;> rfl

theorem hexValue?_digitChar : ∀ digit < 16, hexValue? (Nat.digitChar digit) = some digit := by
  decide

theorem readPieces_unit {n : Nat} (h : n < 0x10000) (cs : List Char) :
    readPieces (['\\', 'u'] ++ hexDigits n ++ cs) =
      (readPieces cs).map fun (pieces, rest) => (.unit n :: pieces, rest) := by
  have hdigit (m : Nat) : hexValue? (Nat.digitChar (m % 16)) = some (m % 16) :=
    hexValue?_digitChar _ (Nat.mod_lt m (by decide))
  have hsum : n / 4096 % 16 * 4096 + n / 256 % 16 * 256 + n / 16 % 16 * 16 + n % 16 = n := by
    omega
  simp only [hexDigits, List.cons_append, List.nil_append, readPieces, hexUnit?, hdigit,
    Option.bind_eq_bind, Option.bind_some, Option.pure_def, hsum]
  cases readPieces cs <;> rfl

theorem readPieces_short {letter c : Char} (h : shortEscape? letter = some c) (cs : List Char) :
    readPieces ('\\' :: letter :: cs) =
      (readPieces cs).map fun (pieces, rest) => (.char c :: pieces, rest) := by
  have hletter : letter ≠ 'u' := by
    rintro rfl
    simp [shortEscape?] at h
  rw [readPieces.eq_def]
  split
  next heq => cases heq
  next heq => cases heq
  next heq =>
    cases heq
    exact absurd rfl hletter
  next heq =>
    cases heq
    rw [h]
    cases readPieces cs <;> rfl
  next hshort heq =>
    cases heq
    exact absurd rfl (hshort _ _ rfl)

theorem readPieces_char {c : Char} (hquote : c ≠ '"') (hslash : c ≠ '\\')
    (hvisible : ¬c.toNat < 0x20) (cs : List Char) :
    readPieces (c :: cs) = (readPieces cs).map fun (pieces, rest) => (.char c :: pieces, rest) := by
  rw [readPieces.eq_def]
  split
  next heq => cases heq
  next heq =>
    cases heq
    exact absurd rfl hquote
  next heq =>
    cases heq
    exact absurd rfl hslash
  next heq =>
    cases heq
    exact absurd rfl hslash
  next heq =>
    cases heq
    rw [if_neg (by simp [hslash, hvisible])]
    cases readPieces cs <;> rfl

/-- Reading takes a written character off as one piece. -/
theorem exists_piece (c : Char) : ∃ piece : Piece, piece.Shows c ∧ ∀ cs,
    readPieces (escapeChar c ++ cs) =
      (readPieces cs).map fun (pieces, rest) => (piece :: pieces, rest) := by
  unfold escapeChar
  split
  case h_8 hquote hslash _ _ _ _ _ =>
    split
    next hcontrol => exact ⟨_, Piece.unit_shows c (by omega), readPieces_unit (by omega)⟩
    next hvisible => exact ⟨_, Piece.char_shows c, readPieces_char hquote hslash hvisible⟩
  all_goals exact ⟨_, Piece.char_shows _, readPieces_short rfl⟩

/-- The pieces of a written text, up to the closing quote. -/
theorem readPieces_flatMap (content rest : List Char) : ∃ pieces,
    readPieces (content.flatMap escapeChar ++ '"' :: rest) = some (pieces, rest) ∧
      joinPieces pieces = some content := by
  induction content with
  | nil => exact ⟨[], by simp [readPieces], rfl⟩
  | cons c content ih =>
    obtain ⟨pieces, hread, hjoin⟩ := ih
    obtain ⟨piece, hshows, htake⟩ := exists_piece c
    refine ⟨piece :: pieces, ?_, ?_⟩
    · rw [List.flatMap_cons, List.append_assoc, htake, hread]
      rfl
    · rw [hshows, hjoin]
      rfl

/-- A literal is read back with what it says: its text, or that it has none. -/
theorem readLiteral_writeLiteral (literal : Literal) : ∃ inner,
    writeLiteral literal = '"' :: inner ∧
      ∀ rest, readLiteral (inner ++ rest) = some (literal, rest) := by
  cases literal with
  | none =>
    refine ⟨['\\', 'u'] ++ hexDigits 0xd800 ++ ['"'], rfl, fun rest => ?_⟩
    rw [readLiteral, List.append_assoc, readPieces_unit (by decide)]
    simp [readPieces, joinPieces, isHighSurrogate]
  | some content =>
    refine ⟨content.toList.flatMap escapeChar ++ ['"'], rfl, fun rest => ?_⟩
    obtain ⟨pieces, hread, hjoin⟩ := readPieces_flatMap content.toList rest
    simp [readLiteral, hread, hjoin]

/-! ## Numbers -/

/-- What follows cannot continue a number. -/
def Ends (rest : List Char) : Prop :=
  ∀ c ∈ rest.head?, c.isDigit = false ∧ c ≠ '.' ∧ c ≠ 'e' ∧ c ≠ 'E'

theorem ends_nil : Ends [] := by
  simp [Ends]

theorem ends_comma (rest : List Char) : Ends (',' :: rest) := by
  simp [Ends]

theorem ends_bracket (rest : List Char) : Ends (']' :: rest) := by
  simp [Ends]

theorem ends_brace (rest : List Char) : Ends ('}' :: rest) := by
  simp [Ends]

theorem Ends.readFraction {rest : List Char} (h : Ends rest) :
    readFraction rest = some ([], rest) := by
  cases rest with
  | nil => rfl
  | cons c rest =>
    have hpoint := (h c rfl).2.1
    rw [Json.readFraction.eq_def]
    split
    next heq =>
      cases heq
      exact absurd rfl hpoint
    next => rfl

theorem Ends.readExponent {rest : List Char} (h : Ends rest) :
    readExponent rest = some ([], rest) := by
  cases rest with
  | nil => rfl
  | cons c rest =>
    have hmark := (h c rfl).2.2
    simp [Json.readExponent, hmark]

/-- The digits in front are exactly those that were written. -/
theorem Ends.readDigits {digits rest : List Char} (h : Ends rest) (hne : digits ≠ [])
    (hdigits : ∀ c ∈ digits, c.isDigit = true) :
    readDigits (digits ++ rest) = some (digits, rest) := by
  have hrest : rest.takeWhile Char.isDigit = [] ∧ rest.dropWhile Char.isDigit = rest := by
    cases rest with
    | nil => exact ⟨rfl, rfl⟩
    | cons c rest => simp [(h c rfl).1]
  simp [Json.readDigits, List.takeWhile_append_of_pos hdigits,
    List.dropWhile_append_of_pos hdigits, hrest, hne]

theorem isDigit_of_mem_writeNat {n : Nat} {c : Char} (h : c ∈ writeNat n) : c.isDigit = true :=
  Nat.isDigit_of_mem_toDigits (by decide) (by decide) h

theorem writeNat_eq_cons (n : Nat) : ∃ c digits, writeNat n = c :: digits ∧ c.isDigit = true := by
  obtain ⟨c, digits, hcons⟩ := List.exists_cons_of_ne_nil (@Nat.toDigits_ne_nil n 10)
  exact ⟨c, digits, hcons, isDigit_of_mem_writeNat (n := n) (by simp [writeNat, hcons])⟩

/-- Only zero starts with the digit zero. -/
theorem eq_zero_of_head_writeNat {n : Nat} (h : (writeNat n).head? = some '0') : n = 0 := by
  induction n using Nat.strongRecOn with
  | ind n ih =>
    rcases Nat.lt_or_ge n 10 with hsmall | hlarge
    · rw [writeNat, Nat.toDigits_of_lt_base hsmall] at h
      exact Nat.digitChar_eq_zero.1 (Option.some.inj h)
    · obtain ⟨c, digits, hcons, -⟩ := writeNat_eq_cons (n / 10)
      have hsplit : writeNat n = writeNat (n / 10) ++ [(n % 10).digitChar] :=
        Nat.toDigits_of_base_le (by decide) hlarge
      rw [hsplit, hcons] at h
      have := ih (n / 10) (by omega) (by rwa [hcons])
      omega

theorem readWhole_writeNat (n : Nat) {rest : List Char} (h : Ends rest) :
    readWhole (writeNat n ++ rest) = some (writeNat n, rest) := by
  have hdigits : readDigits (writeNat n ++ rest) = some (writeNat n, rest) :=
    h.readDigits Nat.toDigits_ne_nil fun _ => isDigit_of_mem_writeNat
  have halone : ¬((writeNat n).head? = some '0' ∧ (writeNat n).length ≠ 1) := by
    rintro ⟨hzero, hlength⟩
    rw [eq_zero_of_head_writeNat hzero] at hlength
    exact hlength rfl
  simp only [readWhole, hdigits, Option.bind_eq_bind, Option.bind_some, if_neg halone]

theorem readNumber_writeNat {n : Nat} (hn : n < Size.limit) {rest : List Char} (h : Ends rest) :
    readNumber (writeNat n ++ rest) = some (.nat n, rest) := by
  have hminus : ¬(writeNat n ++ rest).head? = some '-' := by
    obtain ⟨c, digits, hcons, hc⟩ := writeNat_eq_cons n
    rw [hcons]
    rintro ⟨⟩
    exact absurd hc (by decide)
  have hof : Size.ofDigits? (writeNat n) = some n := Size.ofDigits?_toDigits hn
  simp [readNumber, if_neg hminus, readWhole_writeNat n h, h.readFraction, h.readExponent,
    numberOf, hof, -List.head?_append]

/-! ## Values -/

/-- Every number in the value is a natural number that fits a size. -/
inductive Plain : Json → Prop where
  | null : Plain .null
  | bool (value : Bool) : Plain (.bool value)
  | nat {n : Nat} (fits : n < Size.limit) : Plain (.nat n)
  | text (literal : Literal) : Plain (.text literal)
  | list {items : List Json} (items_plain : ∀ item ∈ items, Plain item) : Plain (.list items)
  | record {members : List (Literal × Json)} (members_plain : ∀ member ∈ members, Plain member.2) :
    Plain (.record members)

@[simp]
theorem skipBlanks_cons {c : Char} (h : isBlank c = false) (cs : List Char) :
    skipBlanks (c :: cs) = c :: cs := by
  simp [skipBlanks, h]

theorem isBlank_of_isDigit {c : Char} (h : c.isDigit = true) : isBlank c = false := by
  simp only [isBlank, Bool.or_eq_false_iff, beq_eq_false_iff_ne]
  refine ⟨⟨⟨?_, ?_⟩, ?_⟩, ?_⟩ <;>
  · rintro rfl
    exact absurd h (by decide)

/-- The first character of a value.  It tells the value from a blank and from the end of a
list. -/
theorem Plain.exists_head {value : Json} (h : value.Plain) : ∃ c cs, value.writeCompact = c :: cs ∧
    isBlank c = false ∧ c ≠ ']' := by
  cases h with
  | null => exact ⟨_, _, rfl, by decide⟩
  | bool value => cases value <;> exact ⟨_, _, rfl, by decide⟩
  | @nat n =>
    obtain ⟨c, digits, hcons, hc⟩ := writeNat_eq_cons n
    refine ⟨c, digits, hcons, isBlank_of_isDigit hc, ?_⟩
    rintro rfl
    exact absurd hc (by decide)
  | text literal =>
    obtain ⟨inner, hcons, -⟩ := readLiteral_writeLiteral literal
    exact ⟨_, _, hcons, by decide⟩
  | list => exact ⟨_, _, rfl, by decide⟩
  | record => exact ⟨_, _, rfl, by decide⟩

/-- A value that starts with a digit is a number. -/
theorem readValue_of_isDigit {c : Char} (h : c.isDigit = true) (fuel : Nat) (cs : List Char) :
    readValue (fuel + 1) (c :: cs) = readNumber (c :: cs) := by
  rw [readValue, skipBlanks_cons (isBlank_of_isDigit h)]
  split
  case h_7 => rfl
  all_goals
    next heq =>
      cases heq
      exact absurd h (by decide)

theorem writeItems_cons_cons (item next : Json) (items : List Json) :
    writeItems (item :: next :: items) =
      item.writeCompact ++ ',' :: writeItems (next :: items) := by
  simp [writeItems]

theorem writeMembers_cons_cons (key : Literal) (value : Json) (next : Literal × Json)
    (members : List (Literal × Json)) :
    writeMembers ((key, value) :: next :: members) =
      writeMembers [(key, value)] ++ ',' :: writeMembers (next :: members) := by
  simp [writeMembers]

/-- What is written first of a list is its first item. -/
theorem exists_writeItems_cons (item : Json) (items : List Json) :
    ∃ more, writeItems (item :: items) = item.writeCompact ++ more := by
  cases items with
  | nil => exact ⟨[], by simp [writeItems]⟩
  | cons next items => exact ⟨_, writeItems_cons_cons item next items⟩

theorem exists_writeMembers_cons (member : Literal × Json) (members : List (Literal × Json)) :
    ∃ more, writeMembers (member :: members) = '"' :: more := by
  obtain ⟨key, value⟩ := member
  obtain ⟨inner, hkey, -⟩ := readLiteral_writeLiteral key
  cases members <;> simp [writeMembers, hkey]

theorem readValue_bracket {c : Char} (hblank : isBlank c = false) (hclose : c ≠ ']') (fuel : Nat)
    (cs : List Char) : readValue (fuel + 1) ('[' :: c :: cs) =
      (readItems fuel (c :: cs)).map fun (items, rest) => (.list items, rest) := by
  rw [readValue, skipBlanks_cons (by decide)]
  simp only [skipBlanks_cons hblank]
  split
  next heq =>
    cases heq
    exact absurd rfl hclose
  next => cases readItems fuel (c :: cs) <;> rfl

theorem readValue_brace {c : Char} (hblank : isBlank c = false) (hclose : c ≠ '}') (fuel : Nat)
    (cs : List Char) : readValue (fuel + 1) ('{' :: c :: cs) =
      (readMembers fuel (c :: cs)).map fun (members, rest) => (.record members, rest) := by
  rw [readValue, skipBlanks_cons (by decide)]
  simp only [skipBlanks_cons hblank]
  split
  next heq =>
    cases heq
    exact absurd rfl hclose
  next => cases readMembers fuel (c :: cs) <;> rfl

/-- The value is read back in front of any text that cannot continue a number, with two units of
fuel for each of its characters. -/
def Returns (value : Json) : Prop :=
  ∀ fuel rest, 2 * value.writeCompact.length ≤ fuel → Ends rest →
    readValue fuel (value.writeCompact ++ rest) = some (value, rest)

theorem readItems_writeItems {items : List Json} (hne : items ≠ [])
    (hitems : ∀ item ∈ items, item.Returns) (fuel : Nat) (rest : List Char)
    (hfuel : 2 * (writeItems items).length + 1 ≤ fuel) :
    readItems fuel (writeItems items ++ ']' :: rest) = some (items, rest) := by
  induction items generalizing fuel with
  | nil => exact absurd rfl hne
  | cons item items ih =>
    obtain ⟨fuel, rfl⟩ : ∃ less, fuel = less + 1 := ⟨fuel - 1, by omega⟩
    have hitem := hitems item (by simp) fuel
    cases items with
    | nil =>
      rw [writeItems] at hfuel ⊢
      simp [readItems, hitem _ (by omega) (ends_bracket rest), isBlank]
    | cons next items =>
      -- The comma pays for the unit of fuel that this round takes.
      rw [writeItems_cons_cons, List.length_append, List.length_cons] at hfuel
      have hrest := ih (by simp) (fun other hother => hitems other (by simp [hother])) fuel
        (by omega)
      simp [writeItems_cons_cons, readItems, hitem _ (by omega) (ends_comma _), isBlank, hrest]

theorem readMembers_writeMembers {members : List (Literal × Json)} (hne : members ≠ [])
    (hvalues : ∀ member ∈ members, member.2.Returns) (fuel : Nat) (rest : List Char)
    (hfuel : 2 * (writeMembers members).length + 1 ≤ fuel) :
    readMembers fuel (writeMembers members ++ '}' :: rest) = some (members, rest) := by
  induction members generalizing fuel with
  | nil => exact absurd rfl hne
  | cons member members ih =>
    obtain ⟨key, value⟩ := member
    obtain ⟨fuel, rfl⟩ : ∃ less, fuel = less + 1 := ⟨fuel - 1, by omega⟩
    obtain ⟨inner, hkey, hread⟩ := readLiteral_writeLiteral key
    have hvalue : value.Returns := hvalues (key, value) (by simp)
    have hone : writeMembers [(key, value)] = '"' :: (inner ++ ':' :: value.writeCompact) := by
      simp [writeMembers, hkey]
    cases members with
    | nil =>
      simp only [hone, List.length_append, List.length_cons] at hfuel
      simp [hone, readMembers, hread, isBlank, hvalue fuel _ (by omega) (ends_brace rest)]
    | cons next members =>
      simp only [writeMembers_cons_cons, hone, List.length_append, List.length_cons] at hfuel
      have hrest := ih (by simp) (fun other hother => hvalues other (by simp [hother])) fuel
        (by omega)
      simp [writeMembers_cons_cons, hone, readMembers, hread, isBlank, hrest,
        hvalue fuel _ (by omega) (ends_comma _)]

/-- A plain value is not empty, so that there is fuel to read it with. -/
theorem Plain.returns_of_succ {value : Json} (hplain : value.Plain)
    (h : ∀ fuel rest, 2 * value.writeCompact.length ≤ fuel + 1 → Ends rest →
      readValue (fuel + 1) (value.writeCompact ++ rest) = some (value, rest)) :
    value.Returns := by
  intro fuel rest hfuel hrest
  obtain ⟨c, cs, hcons, -⟩ := hplain.exists_head
  have hlength : value.writeCompact.length = cs.length + 1 := by rw [hcons, List.length_cons]
  obtain ⟨fuel, rfl⟩ : ∃ less, fuel = less + 1 := ⟨fuel - 1, by omega⟩
  exact h fuel rest hfuel hrest

theorem returns_list {items : List Json} (hplain : ∀ item ∈ items, item.Plain)
    (h : ∀ item ∈ items, item.Returns) : (Json.list items).Returns := by
  refine (Plain.list hplain).returns_of_succ fun fuel rest hfuel _ => ?_
  have hwhole : (Json.list items).writeCompact ++ rest =
      '[' :: (writeItems items ++ ']' :: rest) := by
    simp [writeCompact]
  rw [hwhole]
  cases items with
  | nil => simp [writeItems, readValue, isBlank]
  | cons item items =>
    have hitems := readItems_writeItems (by simp) h fuel rest
      (by simp only [writeCompact, List.length_append, List.length_cons] at hfuel; omega)
    obtain ⟨c, cs, hcons, hblank, hclose⟩ := (hplain item (by simp)).exists_head
    obtain ⟨more, hmore⟩ := exists_writeItems_cons item items
    have hhead : writeItems (item :: items) ++ ']' :: rest =
        c :: (cs ++ more ++ ']' :: rest) := by
      simp [hmore, hcons]
    rw [hhead, readValue_bracket hblank hclose, ← hhead, hitems]
    rfl

theorem returns_record {members : List (Literal × Json)}
    (hplain : ∀ member ∈ members, member.2.Plain) (h : ∀ member ∈ members, member.2.Returns) :
    (Json.record members).Returns := by
  refine (Plain.record hplain).returns_of_succ fun fuel rest hfuel _ => ?_
  have hwhole : (Json.record members).writeCompact ++ rest =
      '{' :: (writeMembers members ++ '}' :: rest) := by
    simp [writeCompact]
  rw [hwhole]
  cases members with
  | nil => simp [writeMembers, readValue, isBlank]
  | cons member members =>
    have hmembers := readMembers_writeMembers (by simp) h fuel rest
      (by simp only [writeCompact, List.length_append, List.length_cons] at hfuel; omega)
    obtain ⟨more, hmore⟩ := exists_writeMembers_cons member members
    rw [hmore, List.cons_append, readValue_brace (by decide) (by decide), ← List.cons_append,
      ← hmore, hmembers]
    rfl

theorem Plain.returns {value : Json} (hplain : value.Plain) : value.Returns := by
  induction hplain with
  | null =>
    refine Plain.null.returns_of_succ fun fuel rest _ _ => ?_
    simp [writeCompact, readValue, isBlank]
  | bool value =>
    refine (Plain.bool value).returns_of_succ fun fuel rest _ _ => ?_
    cases value <;> simp [writeCompact, readValue, isBlank]
  | @nat n hn =>
    refine (Plain.nat hn).returns_of_succ fun fuel rest _ hrest => ?_
    obtain ⟨c, digits, hcons, hc⟩ := writeNat_eq_cons n
    rw [writeCompact, hcons, List.cons_append, readValue_of_isDigit hc, ← List.cons_append,
      ← hcons, readNumber_writeNat hn hrest]
  | text literal =>
    refine (Plain.text literal).returns_of_succ fun fuel rest _ _ => ?_
    obtain ⟨inner, hcons, hread⟩ := readLiteral_writeLiteral literal
    simp [writeCompact, hcons, readValue, isBlank, hread]
  | list hplain ih => exact returns_list hplain ih
  | record hplain ih => exact returns_record hplain ih

/-- A plain value is what its text denotes. -/
theorem Plain.parse?_compact {value : Json} (hplain : value.Plain) :
    parse? value.compact = some value := by
  have hread := hplain.returns (2 * value.writeCompact.length + 1) [] (by omega) ends_nil
  rw [List.append_nil] at hread
  rw [parse?, compact, String.toList_ofList, ofChars?, hread]
  rfl

end LayoutPlanner.Json
