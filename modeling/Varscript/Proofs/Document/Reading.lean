/-
# Reading a document

A text is read as a document in two steps.

* It is cut into tokens character by character.  In a text between double quotes a backslash begins
  the spelling of a character; two numbers may spell one character together.  Control characters
  stand in no text.
* The tokens are read one by one with a stack of the levels that are open.  Texts, `null`, lists and
  records are all the documents there are; a number or a truth value is none.

The second step accepts the tokens of a document and nothing else (`assemble_eq_some_iff`), and
every layout of these tokens is cut into them (`scan_of_spaced`).  So the text of a document is read
back as the document, however it is indented (`read_render`).
-/
import Mathlib.Algebra.Ring.Parity
import Varscript.Proofs.Document.Spacing

namespace Varscript.Json

/-! ### Cutting a text into tokens -/

/-- The mark that a character is, if it is one. -/
def Mark.ofChar? : Char → Option Mark
  | '[' => some .openList
  | ']' => some .closeList
  | '\x7b' => some .openRecord
  | '\x7d' => some .closeRecord
  | ',' => some .comma
  | ':' => some .colon
  | _ => none

/-- The value of a hexadecimal digit. -/
def hexValue? (c : Char) : Option Nat :=
  if '0' ≤ c ∧ c ≤ '9' then some (c.toNat - '0'.toNat)
  else if 'a' ≤ c ∧ c ≤ 'f' then some (c.toNat - 'a'.toNat + 10)
  else if 'A' ≤ c ∧ c ≤ 'F' then some (c.toNat - 'A'.toNat + 10)
  else none

/-- What has been read of a text. -/
structure Unfinished where
  /-- The characters, the last one first. -/
  chars : List Char
  /-- The first one of two numbers for one character, if the other one is still to come. -/
  half : Option Nat
deriving DecidableEq, Repr

/-- One character more; none may come between two numbers that belong together. -/
def Unfinished.push (p : Unfinished) (c : Char) : Option Unfinished :=
  if p.half = none then some ⟨c :: p.chars, none⟩ else none

/-- The character with a number.  The numbers from `0xd800` to `0xdfff` stand for characters in
pairs only, one from either half. -/
def Unfinished.pushNumber (p : Unfinished) (n : Nat) : Option Unfinished :=
  if 0xd800 ≤ n ∧ n < 0xdc00 then
    if p.half = none then some ⟨p.chars, some n⟩ else none
  else if 0xdc00 ≤ n ∧ n < 0xe000 then
    p.half.map fun h =>
      ⟨Char.ofNat (0x10000 + 0x400 * (h - 0xd800) + (n - 0xdc00)) :: p.chars, none⟩
  else p.push (Char.ofNat n)

/-- Where in the text of a document a character stands. -/
inductive Mode where
  | between
  /-- Inside the word `null`, of which some characters must still come. -/
  | word (left : List Char)
  | text (p : Unfinished)
  /-- Behind a backslash. -/
  | escape (p : Unfinished)
  /-- Inside a number; `left` digits must still come behind the next one. -/
  | number (p : Unfinished) (left value : Nat)

/-- The tokens of a text that begins in some mode, if it can be cut into tokens. -/
def scan : Mode → List Char → Option (List Token)
  | .between, [] => some []
  | .between, c :: cs =>
    if isBlank c = true then scan .between cs
    else if c = '"' then scan (.text ⟨[], none⟩) cs
    else if c = 'n' then scan (.word ['u', 'l', 'l']) cs
    else (Mark.ofChar? c).bind fun m => (scan .between cs).map (.mark m :: ·)
  | .word [d], c :: cs => if c = d then (scan .between cs).map (.null :: ·) else none
  | .word (d :: left), c :: cs => if c = d then scan (.word left) cs else none
  | .text p, c :: cs =>
    if c = '"' then
      if p.half = none then (scan .between cs).map (.text (String.ofList p.chars.reverse) :: ·)
      else none
    else if c = '\\' then scan (.escape p) cs
    else if c.toNat < 0x20 then none
    else (p.push c).bind fun p => scan (.text p) cs
  | .escape p, c :: cs =>
    if c = 'u' then scan (.number p 3 0) cs
    else ((unescape? c).bind p.push).bind fun p => scan (.text p) cs
  | .number p 0 value, c :: cs =>
    ((hexValue? c).bind fun d => p.pushNumber (16 * value + d)).bind fun p => scan (.text p) cs
  | .number p (left + 1) value, c :: cs =>
    (hexValue? c).bind fun d => scan (.number p left (16 * value + d)) cs
  | _, _ => none

/-! ### Putting tokens together -/

/-- A level that is open. -/
inductive Level where
  /-- A list with the items that have been read, the last one first. -/
  | list (before : List Json)
  /-- A record with the fields that have been read, the last one first, and the name of the next. -/
  | record (before : List (String × Json)) (name : String)

/-- What has been read of the tokens, and what may come next. -/
inductive Reading where
  /-- A document. -/
  | value (levels : List Level)
  /-- The name of a field. -/
  | name (before : List (String × Json)) (levels : List Level)
  /-- The colon behind the name of a field. -/
  | colon (before : List (String × Json)) (name : String) (levels : List Level)
  /-- What comes behind a document in the innermost level. -/
  | behind (j : Json) (levels : List Level)

/-- One token more, if it may come. -/
def Reading.step : Reading → Token → Option Reading
  | value levels, .null => some (behind .null levels)
  | value levels, .text s => some (behind (.text s) levels)
  | value levels, .mark .openList => some (value (.list [] :: levels))
  | value levels, .mark .openRecord => some (name [] levels)
  | value levels, .mark .closeList =>
    match levels with
    | .list [] :: levels => some (behind (.list []) levels)
    | _ => none
  | name before levels, .text s => some (colon before s levels)
  | name before levels, .mark .closeRecord =>
    match before with
    | [] => some (behind (.record []) levels)
    | _ :: _ => none
  | colon before s levels, .mark .colon => some (value (.record before s :: levels))
  | behind j (.list before :: levels), .mark .comma => some (value (.list (j :: before) :: levels))
  | behind j (.list before :: levels), .mark .closeList =>
    some (behind (.list (j :: before).reverse) levels)
  | behind j (.record before s :: levels), .mark .comma => some (name ((s, j) :: before) levels)
  | behind j (.record before s :: levels), .mark .closeRecord =>
    some (behind (.record ((s, j) :: before).reverse) levels)
  | _, _ => none

/-- Some tokens more, one by one. -/
def Reading.feed (r : Reading) (ts : List Token) : Option Reading := ts.foldlM Reading.step r

/-- The document that the tokens make, if they make one. -/
def assemble (ts : List Token) : Option Json :=
  match Reading.feed (.value []) ts with
  | some (.behind j []) => some j
  | _ => none

/-- The document that a text is, if it is one. -/
def read (text : String) : Option Json := (scan .between text.toList).bind assemble

/-! ### Every layout is cut into its tokens -/

section Scan

variable {cs ds rest : List Char} {p : Unfinished}

lemma hexValue?_hexDigit {n : Nat} (h : n < 16) : hexValue? (Text.hexDigit n) = some n := by
  revert n
  decide

lemma value_hexDigits (value width n : Nat) :
    16 * (value * 16 ^ width + n / 16 % 16 ^ width) + n % 16 =
      value * 16 ^ (width + 1) + n % 16 ^ (width + 1) := by
  rw [Nat.pow_succ', Nat.mod_mul, Nat.mul_left_comm]
  omega

/-- The digits of a number, as long as others must come behind them. -/
lemma scan_hexDigits {all left width : Nat} (value n : Nat) (h : all = left + width) :
    scan (.number p all value) (Text.hexDigits width n ++ rest) =
      scan (.number p left (value * 16 ^ width + n % 16 ^ width)) rest := by
  induction width generalizing left n rest with
  | zero =>
    subst h
    simp [Text.hexDigits, Nat.mod_one]
  | succ width ih =>
    have hleft : all = left + 1 + width := by omega
    rw [Text.hexDigits, List.append_assoc, ih (n / 16) hleft, List.singleton_append, scan,
      hexValue?_hexDigit (Nat.mod_lt _ (by omega)), Option.bind_some, value_hexDigits]

/-- The digits of a number, to the last one. -/
lemma scan_number (width n : Nat) :
    scan (.number p width 0) (Text.hexDigits (width + 1) n ++ rest) =
      (p.pushNumber (n % 16 ^ (width + 1))).bind fun p => scan (.text p) rest := by
  rw [Text.hexDigits, List.append_assoc, scan_hexDigits 0 (n / 16) (Nat.zero_add width).symm,
    List.singleton_append, scan, hexValue?_hexDigit (Nat.mod_lt _ (by omega)), Option.bind_some,
    value_hexDigits, Nat.zero_mul, Nat.zero_add]

/-- The spelling of a character is read as the character. -/
lemma scan_spelling {c : Char} (h : IsSpelling c cs) (read : List Char) :
    scan (.text ⟨read, none⟩) (cs ++ rest) = scan (.text ⟨c :: read, none⟩) rest := by
  cases h with
  | plain hquote hbackslash hcontrol =>
    rw [List.singleton_append, scan, if_neg hquote, if_neg hbackslash, if_neg hcontrol]
    rfl
  | @letter e he =>
    have hu : e ≠ 'u' := by
      rintro rfl
      cases he
    show scan (.escape ⟨read, none⟩) (e :: rest) = _
    rw [scan, if_neg hu, he]
    rfl
  | number hcontrol =>
    have hpush : Unfinished.pushNumber ⟨read, none⟩ c.toNat = some ⟨c :: read, none⟩ := by
      rw [Unfinished.pushNumber, if_neg (by omega), if_neg (by omega), Char.ofNat_toNat]
      rfl
    show scan (.number ⟨read, none⟩ 3 0) (Text.hexDigits 4 c.toNat ++ rest) = _
    rw [scan_number, Nat.mod_eq_of_lt (by omega), hpush, Option.bind_some]

lemma scan_body (s read : List Char) : scan (.text ⟨read, none⟩) (s.flatMap escapedChar ++ rest) =
    scan (.text ⟨s.reverse ++ read, none⟩) rest := by
  induction s generalizing read with
  | nil => rfl
  | cons c s ih =>
    rw [List.flatMap_cons, List.append_assoc, scan_spelling (isSpelling_escapedChar c), ih,
      List.reverse_cons, List.append_assoc, List.singleton_append]

lemma scan_quotedText (s : String) : scan .between ((quotedText s).toList ++ rest) =
    (scan .between rest).map (.text s :: ·) := by
  rw [quotedText, String.toList_ofList, List.cons_append, List.cons_append, List.append_assoc]
  show scan (.text ⟨[], none⟩) _ = _
  rw [scan_body, List.append_nil, List.singleton_append, scan, if_pos rfl, if_pos rfl,
    List.reverse_reverse, String.ofList_toList]

lemma scan_token (t : Token) :
    scan .between (t.chars ++ rest) = (scan .between rest).map (t :: ·) := by
  cases t with
  | null => rfl
  | text s => exact scan_quotedText s
  | mark m => cases m <;> rfl

/-- Blanks do not matter. -/
lemma scan_of_spaced {ts : List Token} (h : Spaced ts cs) : scan .between cs = some ts := by
  induction h with
  | nil => rfl
  | blank hc _ ih => rw [scan, if_pos hc, ih]
  | token t _ ih => rw [scan_token, ih, Option.map_some]

end Scan

/-! ### The tokens of a document are put together again -/

namespace Reading

variable {r r' : Reading}

lemma feed_cons (t : Token) (ts : List Token) :
    r.feed (t :: ts) = (r.step t).bind fun r' => r'.feed ts := List.foldlM_cons ..

lemma feed_append (ts us : List Token) :
    r.feed (ts ++ us) = (r.feed ts).bind fun r' => r'.feed us := List.foldlM_append ..

mutual

/-- Where a document may come, its tokens are read as the document. -/
lemma feed_tokens (levels : List Level) :
    ∀ j : Json, (value levels).feed j.tokens = some (behind j levels)
  | null => rfl
  | text _ => rfl
  | list [] => rfl
  | list (item :: items) => by
    rw [tokens, bracketed, feed_cons]
    exact feed_items levels [] (item :: items) (by simp)
  | record [] => rfl
  | record (field :: fields) => by
    rw [tokens, bracketed, feed_cons]
    exact feed_fields levels [] (field :: fields) (by simp)

/-- The items of a list to its end. -/
lemma feed_items (levels : List Level) (before : List Json) : ∀ items : List Json, items ≠ [] →
    (value (.list before :: levels)).feed
        (List.intercalate [.mark .comma] (tokensOfItems items) ++ [.mark .closeList]) =
      some (behind (.list (before.reverse ++ items)) levels)
  | [], h => absurd rfl h
  | [item], _ => by
    rw [tokensOfItems, tokensOfItems, List.intercalate_singleton, feed_append,
      feed_tokens (.list before :: levels) item, Option.bind_some, ← List.reverse_cons]
    rfl
  | item :: next :: items, _ => by
    have hrest := feed_items levels (item :: before) (next :: items) (by simp)
    rw [List.reverse_cons, List.append_assoc, List.singleton_append, tokensOfItems] at hrest
    rw [tokensOfItems, tokensOfItems, List.intercalate_cons_cons, List.append_assoc,
      List.append_assoc, feed_append, feed_tokens (.list before :: levels) item, Option.bind_some,
      List.singleton_append, feed_cons]
    exact hrest

/-- The fields of a record to its end. -/
lemma feed_fields (levels : List Level) (before : List (String × Json)) :
    ∀ fields : List (String × Json), fields ≠ [] →
    (name before levels).feed
        (List.intercalate [.mark .comma] (tokensOfFields fields) ++ [.mark .closeRecord]) =
      some (behind (.record (before.reverse ++ fields)) levels)
  | [], h => absurd rfl h
  | [(s, j)], _ => by
    have hvalue := feed_tokens (.record before s :: levels) j
    rw [tokensOfFields, tokensOfFields, List.intercalate_singleton, feed_append]
    show ((value (.record before s :: levels)).feed j.tokens).bind _ = _
    rw [hvalue, Option.bind_some, ← List.reverse_cons]
    rfl
  | (s, j) :: next :: fields, _ => by
    have hvalue := feed_tokens (.record before s :: levels) j
    have hrest := feed_fields levels ((s, j) :: before) (next :: fields) (by simp)
    rw [List.reverse_cons, List.append_assoc, List.singleton_append, tokensOfFields] at hrest
    rw [tokensOfFields, tokensOfFields, List.intercalate_cons_cons, List.append_assoc,
      List.append_assoc, feed_append]
    show ((value (.record before s :: levels)).feed j.tokens).bind _ = _
    rw [hvalue, Option.bind_some, List.singleton_append, feed_cons]
    exact hrest

end

end Reading

/-! ### No other tokens make a document -/

lemma tokensOfItems_append (items : List Json) (item : Json) :
    tokensOfItems (items ++ [item]) = tokensOfItems items ++ [item.tokens] := by
  induction items with
  | nil => rfl
  | cons first items ih => rw [List.cons_append, tokensOfItems, tokensOfItems, ih, List.cons_append]

lemma tokensOfFields_append (fields : List (String × Json)) (s : String) (j : Json) :
    tokensOfFields (fields ++ [(s, j)]) =
      tokensOfFields fields ++ [.text s :: .mark .colon :: j.tokens] := by
  induction fields with
  | nil => rfl
  | cons first fields ih =>
    rw [List.cons_append, tokensOfFields, tokensOfFields, ih, List.cons_append]

/-- Some parts with a comma behind each of them. -/
def withCommas (parts : List (List Token)) : List Token := parts.flatMap (· ++ [.mark .comma])

lemma withCommas_nil : withCommas [] = [] := rfl

lemma withCommas_append (parts : List (List Token)) (part : List Token) :
    withCommas (parts ++ [part]) = withCommas parts ++ (part ++ [.mark .comma]) := by
  simp [withCommas]

lemma intercalate_append (parts : List (List Token)) (part : List Token) :
    List.intercalate [.mark .comma] (parts ++ [part]) = withCommas parts ++ part := by
  induction parts with
  | nil => simp [withCommas]
  | cons first parts ih =>
    rw [List.cons_append, List.intercalate_cons_of_ne_nil (by simp), ih, withCommas, withCommas,
      List.flatMap_cons, List.append_assoc _ _ part]

/-- The tokens that have been read of a level. -/
def Level.taken : Level → List Token
  | list before => .mark .openList :: withCommas (tokensOfItems before.reverse)
  | record before s => .mark .openRecord ::
    (withCommas (tokensOfFields before.reverse) ++ [.text s, .mark .colon])

namespace Reading

variable {r r' : Reading}

/-- The tokens that have been read. -/
def taken : Reading → List Token
  | value levels => levels.reverse.flatMap Level.taken
  | name before levels => levels.reverse.flatMap Level.taken ++
    .mark .openRecord :: withCommas (tokensOfFields before.reverse)
  | colon before s levels => levels.reverse.flatMap Level.taken ++
    .mark .openRecord :: (withCommas (tokensOfFields before.reverse) ++ [.text s])
  | behind j levels => levels.reverse.flatMap Level.taken ++ j.tokens

/-- A step takes the token that it reads, whatever it makes of it. -/
lemma taken_of_step {t : Token} (h : r.step t = some r') : r'.taken = r.taken ++ [t] := by
  revert h
  fun_cases step r t <;> intro h <;> cases h
  all_goals simp [taken, Level.taken, tokens, bracketed, tokensOfItems, tokensOfFields,
    tokensOfItems_append, tokensOfFields_append, withCommas_nil, withCommas_append,
    intercalate_append]

lemma taken_of_feed {ts : List Token} (h : r.feed ts = some r') : r'.taken = r.taken ++ ts := by
  induction ts generalizing r with
  | nil =>
    obtain rfl := Option.some.inj h
    rw [List.append_nil]
  | cons t ts ih =>
    rw [feed_cons] at h
    obtain ⟨r'', hstep, hfeed⟩ := Option.bind_eq_some_iff.1 h
    rw [ih hfeed, taken_of_step hstep, List.append_assoc, List.singleton_append]

end Reading

/-- The tokens of a document make the document, and no other tokens do. -/
lemma assemble_eq_some_iff (ts : List Token) (j : Json) : assemble ts = some j ↔ ts = j.tokens := by
  constructor
  · intro h
    unfold assemble at h
    split at h
    · next j' hfeed =>
      obtain rfl := Option.some.inj h
      exact (Reading.taken_of_feed hfeed).symm
    · cases h
  · rintro rfl
    rw [assemble, Reading.feed_tokens]

/-- A text is read as a document exactly if its tokens are those of the document. -/
lemma read_eq_some_iff (text : String) (j : Json) :
    read text = some j ↔ scan .between text.toList = some j.tokens := by
  rw [read, Option.bind_eq_some_iff]
  constructor
  · rintro ⟨ts, hscan, hassemble⟩
    rw [hscan, (assemble_eq_some_iff ts j).1 hassemble]
  · intro hscan
    exact ⟨_, hscan, (assemble_eq_some_iff _ j).2 rfl⟩

/-- Two numbers make one character together, and the first of them makes none by itself. -/
example : read "[\"\\ud83d\\ude00\", null]" = some (.list [.text "😀", .null]) ∧
    (read "[\"\\ud83d\"]").isNone ∧ (read "[null,]").isNone := ⟨rfl, rfl, rfl⟩

/-- A printed document is read back, however it is indented. -/
lemma read_render (indent : Option Nat) (j : Json) : read (j.render indent) = some j :=
  (read_eq_some_iff _ j).2 (scan_of_spaced (spaced_render indent j))

lemma render_injective (indent : Option Nat) : Function.Injective (render indent) := by
  intro j j' h
  rw [← Option.some_inj, ← read_render indent j, h, read_render indent j']

end Varscript.Json
