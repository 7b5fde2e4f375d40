/-
# Decoding is the inverse of encoding

A byte string is decoded exactly if it is the encoding of a text, and then this text is the result
(`decode_eq_ok_iff`).

A character takes one to four bytes, and its first byte shows how many (`lead_of_two` and the
lemmas around it).  The decoder remembers what it has read of a character as a number and as the
bytes themselves; `IsSound` says that the two agree: whatever bytes it accepts from there on, they
are the encoding of the character that it will hand out.
-/
import Mathlib.Tactic.Lemma
import Varscript.Text.Utf8

namespace Varscript.Text.Utf8

/-! ### Encodings by their length -/

section Encoding

variable {v : Nat}

lemma toNat_ofNat (h : v.isValidChar) : (Char.ofNat v).toNat = v := by
  rw [Char.ofNat, dif_pos h]
  rfl

lemma encodeChar_one (h : v < 0x80) : String.utf8EncodeChar (Char.ofNat v) = [UInt8.ofNat v] := by
  have hv : (Char.ofNat v).val.toNat = v := toNat_ofNat (.inl (by omega))
  rw [String.utf8EncodeChar, hv, if_pos (by omega)]

lemma encodeChar_two (h : 0x80 ≤ v) (h' : v < 0x800) : String.utf8EncodeChar (Char.ofNat v) =
    [UInt8.ofNat (0xC0 + v / 64), UInt8.ofNat (0x80 + v % 64)] := by
  have hv : (Char.ofNat v).val.toNat = v := toNat_ofNat (.inl (by omega))
  rw [String.utf8EncodeChar, hv, if_neg (by omega), if_pos (by omega), Nat.mod_eq_of_lt (by omega),
    Nat.add_comm 0xC0, Nat.add_comm 0x80]

lemma encodeChar_three (h : 0x800 ≤ v) (h' : v < 0x10000) (hv : v.isValidChar) :
    String.utf8EncodeChar (Char.ofNat v) =
      [UInt8.ofNat (0xE0 + v / 4096), UInt8.ofNat (0x80 + v / 64 % 64),
        UInt8.ofNat (0x80 + v % 64)] := by
  have hv : (Char.ofNat v).val.toNat = v := toNat_ofNat hv
  rw [String.utf8EncodeChar, hv, if_neg (by omega), if_neg (by omega), if_pos (by omega),
    Nat.mod_eq_of_lt (a := v / 4096) (by omega), Nat.add_comm 0xE0, Nat.add_comm 0x80,
    Nat.add_comm 0x80]

lemma encodeChar_four (h : 0x10000 ≤ v) (h' : v < 0x110000) :
    String.utf8EncodeChar (Char.ofNat v) =
      [UInt8.ofNat (0xF0 + v / 262144), UInt8.ofNat (0x80 + v / 4096 % 64),
        UInt8.ofNat (0x80 + v / 64 % 64), UInt8.ofNat (0x80 + v % 64)] := by
  have hv : (Char.ofNat v).val.toNat = v := toNat_ofNat (.inr ⟨by omega, h'⟩)
  rw [String.utf8EncodeChar, hv, if_neg (by omega), if_neg (by omega), if_neg (by omega),
    Nat.mod_eq_of_lt (a := v / 262144) (by omega), Nat.add_comm 0xF0, Nat.add_comm 0x80,
    Nat.add_comm 0x80, Nat.add_comm 0x80]

end Encoding

/-! ### The first byte -/

section Lead

variable {b : UInt8}

lemma lead_of_one (h : b.toNat < 0x80) : lead b = .whole (Char.ofNat b.toNat) := by
  simp only [lead, h, if_true]

lemma lead_of_two (h : 0xC2 ≤ b.toNat) (h' : b.toNat < 0xE0) :
    lead b = .opens ⟨0, 0x80, 0xBF, b.toNat - 0xC0, [b]⟩ := by
  rw [lead, if_neg (by omega), if_neg (by omega), if_pos h']

lemma lead_of_three (h : 0xE0 ≤ b.toNat) (h' : b.toNat < 0xF0) :
    lead b = .opens ⟨1, if b.toNat = 0xE0 then 0xA0 else 0x80,
      if b.toNat = 0xED then 0x9F else 0xBF, b.toNat - 0xE0, [b]⟩ := by
  rw [lead, if_neg (by omega), if_neg (by omega), if_neg (by omega)]
  by_cases hfirst : b.toNat = 0xE0
  · simp [hfirst]
  by_cases hlast : b.toNat = 0xED
  · simp [hlast]
  · simp [hfirst, hlast, h']

lemma lead_of_four (h : 0xF0 ≤ b.toNat) (h' : b.toNat < 0xF5) :
    lead b = .opens ⟨2, if b.toNat = 0xF0 then 0x90 else 0x80,
      if b.toNat = 0xF4 then 0x8F else 0xBF, b.toNat - 0xF0, [b]⟩ := by
  rw [lead, if_neg (by omega), if_neg (by omega), if_neg (by omega), if_neg (by omega),
    if_neg (by omega), if_neg (by omega)]
  by_cases hfirst : b.toNat = 0xF0
  · simp [hfirst]
  by_cases hlast : b.toNat = 0xF4
  · simp [hlast]
  · simp [hfirst, hlast, show b.toNat < 0xF4 by omega]

/-- No other byte starts a character. -/
lemma lead_of_none (h : 0x80 ≤ b.toNat) (h' : b.toNat < 0xC2 ∨ 0xF5 ≤ b.toNat) :
    lead b = .bad := by
  rw [lead, if_neg (by omega)]
  rcases h' with h' | h'
  · rw [if_pos h']
  · rw [if_neg (by omega), if_neg (by omega), if_neg (by omega), if_neg (by omega),
      if_neg (by omega), if_neg (by omega), if_neg (by omega), if_neg (by omega)]

end Lead

/-! ### Steps of the decoder -/

section Step

variable {position owed low high value : Nat} {b : UInt8} {bytes taken : List UInt8} {p : Pending}
  {c : Char}

lemma decodeFrom_whole (h : lead b = .whole c) : decodeFrom position none (b :: bytes) =
    (c :: ·) <$> decodeFrom (position + 1) none bytes := by
  rw [decodeFrom, h]

lemma decodeFrom_opens (h : lead b = .opens p) : decodeFrom position none (b :: bytes) =
    decodeFrom (position + 1) (some p) bytes := by
  rw [decodeFrom, h]

lemma decodeFrom_last (hlow : low ≤ b.toNat) (hhigh : b.toNat ≤ high) :
    decodeFrom position (some ⟨0, low, high, value, taken⟩) (b :: bytes) =
      (Char.ofNat (value * 64 + (b.toNat - 0x80)) :: ·) <$>
        decodeFrom (position + 1) none bytes := by
  rw [decodeFrom, if_neg (by simp only; omega)]

lemma decodeFrom_middle (hlow : low ≤ b.toNat) (hhigh : b.toNat ≤ high) :
    decodeFrom position (some ⟨owed + 1, low, high, value, taken⟩) (b :: bytes) =
      decodeFrom (position + 1)
        (some ⟨owed, 0x80, 0xBF, value * 64 + (b.toNat - 0x80), b :: taken⟩) bytes := by
  rw [decodeFrom, if_neg (by simp only; omega)]

end Step

/-! ### What is decoded is an encoding -/

/-- Whatever bytes the decoder accepts from here on up to the end of the character, they are, behind
those already taken, the encoding of what it hands out.  The arguments are those of a character
whose first bytes have been read. -/
def IsSound : Nat → Nat → Nat → Nat → List UInt8 → Prop
  | 0, low, high, value, taken => ∀ b : UInt8, low ≤ b.toNat → b.toNat ≤ high →
      String.utf8EncodeChar (Char.ofNat (value * 64 + (b.toNat - 0x80))) = taken.reverse ++ [b]
  | owed + 1, low, high, value, taken => ∀ b : UInt8, low ≤ b.toNat → b.toNat ≤ high →
      IsSound owed 0x80 0xBF (value * 64 + (b.toNat - 0x80)) (b :: taken)

/-- The same for a character as a whole. -/
def Pending.IsSound (p : Pending) : Prop := Utf8.IsSound p.owed p.low p.high p.value p.taken

lemma ofNat_eq_of_toNat {n : Nat} {b : UInt8} (h : n = b.toNat) : UInt8.ofNat n = b := by
  rw [h, UInt8.ofNat_toNat]

section Sound

variable {b : UInt8}

lemma isSound_two (h : 0xC2 ≤ b.toNat) (h' : b.toNat < 0xE0) :
    IsSound 0 0x80 0xBF (b.toNat - 0xC0) [b] := by
  intro b₁ hlow hhigh
  rw [encodeChar_two (by omega) (by omega), ofNat_eq_of_toNat (b := b) (by omega),
    ofNat_eq_of_toNat (b := b₁) (by omega)]
  rfl

lemma isSound_three (h : 0xE0 ≤ b.toNat) (h' : b.toNat < 0xF0) :
    IsSound 1 (if b.toNat = 0xE0 then 0xA0 else 0x80) (if b.toNat = 0xED then 0x9F else 0xBF)
      (b.toNat - 0xE0) [b] := by
  intro b₁ hlow hhigh b₂ hlow₂ hhigh₂
  -- a narrow range keeps the character from being short, and from being a surrogate
  have hshort : 0x80 ≤ b₁.toNat ∧ (b.toNat = 0xE0 → 0xA0 ≤ b₁.toNat) := by
    split at hlow <;> omega
  have hsurrogate : b₁.toNat ≤ 0xBF ∧ (b.toNat = 0xED → b₁.toNat ≤ 0x9F) := by
    split at hhigh <;> omega
  rw [encodeChar_three (by omega) (by omega) (by unfold Nat.isValidChar; omega),
    ofNat_eq_of_toNat (b := b) (by omega), ofNat_eq_of_toNat (b := b₁) (by omega),
    ofNat_eq_of_toNat (b := b₂) (by omega)]
  rfl

lemma isSound_four (h : 0xF0 ≤ b.toNat) (h' : b.toNat < 0xF5) :
    IsSound 2 (if b.toNat = 0xF0 then 0x90 else 0x80) (if b.toNat = 0xF4 then 0x8F else 0xBF)
      (b.toNat - 0xF0) [b] := by
  intro b₁ hlow hhigh b₂ hlow₂ hhigh₂ b₃ hlow₃ hhigh₃
  have hshort : 0x80 ≤ b₁.toNat ∧ (b.toNat = 0xF0 → 0x90 ≤ b₁.toNat) := by
    split at hlow <;> omega
  have hlarge : b₁.toNat ≤ 0xBF ∧ (b.toNat = 0xF4 → b₁.toNat ≤ 0x8F) := by
    split at hhigh <;> omega
  rw [encodeChar_four (by omega) (by omega), ofNat_eq_of_toNat (b := b) (by omega),
    ofNat_eq_of_toNat (b := b₁) (by omega), ofNat_eq_of_toNat (b := b₂) (by omega),
    ofNat_eq_of_toNat (b := b₃) (by omega)]
  rfl

end Sound

/-- A first byte is a character, or it has been understood, or it is refused. -/
lemma lead_cases (b : UInt8) :
    (b.toNat < 0x80 ∧ lead b = .whole (Char.ofNat b.toNat)) ∨
      (∃ p, lead b = .opens p ∧ p.taken = [b] ∧ p.IsSound) ∨ lead b = .bad := by
  have hranges : b.toNat < 0x80 ∨ (0x80 ≤ b.toNat ∧ (b.toNat < 0xC2 ∨ 0xF5 ≤ b.toNat)) ∨
      (0xC2 ≤ b.toNat ∧ b.toNat < 0xE0) ∨ (0xE0 ≤ b.toNat ∧ b.toNat < 0xF0) ∨
        (0xF0 ≤ b.toNat ∧ b.toNat < 0xF5) := by omega
  rcases hranges with hone | ⟨hlow, hhigh⟩ | ⟨hlow, hhigh⟩ | ⟨hlow, hhigh⟩ | ⟨hlow, hhigh⟩
  · exact .inl ⟨hone, lead_of_one hone⟩
  · exact .inr (.inr (lead_of_none hlow hhigh))
  · exact .inr (.inl ⟨_, lead_of_two hlow hhigh, rfl, isSound_two hlow hhigh⟩)
  · exact .inr (.inl ⟨_, lead_of_three hlow hhigh, rfl, isSound_three hlow hhigh⟩)
  · exact .inr (.inl ⟨_, lead_of_four hlow hhigh, rfl, isSound_four hlow hhigh⟩)

/-- The bytes already taken of the character at hand, if there is one. -/
def takenOf : Option Pending → List UInt8
  | none => []
  | some p => p.taken.reverse

/-- A character that has been read stands in front of the rest. -/
lemma exists_of_cons_eq_ok {c : Char} {r : Except Fault (List Char)} {cs : List Char}
    (h : (c :: ·) <$> r = .ok cs) : ∃ tail, r = .ok tail ∧ cs = c :: tail := by
  cases r with
  | ok tail => exact ⟨tail, rfl, (Except.ok.inj h).symm⟩
  | error f => cases h

lemma eq_encode_of_decodeFrom {position : Nat} {inside : Option Pending} {bytes : List UInt8}
    {cs : List Char} (hinside : ∀ p ∈ inside, p.IsSound)
    (h : decodeFrom position inside bytes = .ok cs) : takenOf inside ++ bytes = encode cs := by
  induction bytes generalizing position inside cs with
  | nil =>
    cases inside with
    | none =>
      obtain rfl := Except.ok.inj h
      rfl
    | some p => cases h
  | cons b bytes ih =>
    cases inside with
    | none =>
      rcases lead_cases b with ⟨hone, hlead⟩ | ⟨p, hlead, htaken, hp⟩ | hlead
      · rw [decodeFrom_whole hlead] at h
        obtain ⟨tail, htail, rfl⟩ := exists_of_cons_eq_ok h
        rw [encode, List.flatMap_cons, encodeChar_one hone, UInt8.ofNat_toNat]
        exact congrArg (b :: ·) (ih (by simp) htail)
      · rw [decodeFrom_opens hlead] at h
        have hrest := ih (by simpa using hp) h
        rw [takenOf, htaken] at hrest
        exact hrest
      · rw [decodeFrom, hlead] at h
        cases h
    | some p =>
      obtain ⟨owed, low, high, value, taken⟩ := p
      have hsound : IsSound owed low high value taken := hinside _ rfl
      by_cases hrange : b.toNat < low ∨ high < b.toNat
      · rw [decodeFrom, if_pos hrange] at h
        cases h
      cases owed with
      | zero =>
        rw [decodeFrom_last (by omega) (by omega)] at h
        obtain ⟨tail, htail, rfl⟩ := exists_of_cons_eq_ok h
        rw [encode, List.flatMap_cons, hsound b (by omega) (by omega), List.append_assoc]
        exact congrArg (taken.reverse ++ b :: ·) (ih (by simp) htail)
      | succ owed =>
        rw [decodeFrom_middle (by omega) (by omega)] at h
        have hrest := ih (fun p hp => ?_) h
        · simpa [takenOf] using hrest
        · obtain rfl := Option.some.inj hp
          exact hsound b (by omega) (by omega)

/-! ### Every encoding is decoded -/

section Whole

variable {position : Nat} {b b₁ b₂ b₃ : UInt8} {bytes : List UInt8}

lemma decodeFrom_two (h : 0xC2 ≤ b.toNat ∧ b.toNat < 0xE0)
    (h₁ : 0x80 ≤ b₁.toNat ∧ b₁.toNat ≤ 0xBF) :
    decodeFrom position none (b :: b₁ :: bytes) =
      (Char.ofNat ((b.toNat - 0xC0) * 64 + (b₁.toNat - 0x80)) :: ·) <$>
        decodeFrom (position + 1 + 1) none bytes := by
  rw [decodeFrom_opens (lead_of_two h.1 h.2), decodeFrom_last h₁.1 h₁.2]

lemma decodeFrom_three (h : 0xE0 ≤ b.toNat ∧ b.toNat < 0xF0)
    (h₁ : 0x80 ≤ b₁.toNat ∧ b₁.toNat ≤ 0xBF) (hshort : b.toNat = 0xE0 → 0xA0 ≤ b₁.toNat)
    (hsurrogate : b.toNat = 0xED → b₁.toNat ≤ 0x9F) (h₂ : 0x80 ≤ b₂.toNat ∧ b₂.toNat ≤ 0xBF) :
    decodeFrom position none (b :: b₁ :: b₂ :: bytes) =
      (Char.ofNat (((b.toNat - 0xE0) * 64 + (b₁.toNat - 0x80)) * 64 + (b₂.toNat - 0x80)) :: ·) <$>
        decodeFrom (position + 1 + 1 + 1) none bytes := by
  rw [decodeFrom_opens (lead_of_three h.1 h.2),
    decodeFrom_middle (by split <;> omega) (by split <;> omega), decodeFrom_last h₂.1 h₂.2]

lemma decodeFrom_four (h : 0xF0 ≤ b.toNat ∧ b.toNat < 0xF5)
    (h₁ : 0x80 ≤ b₁.toNat ∧ b₁.toNat ≤ 0xBF) (hshort : b.toNat = 0xF0 → 0x90 ≤ b₁.toNat)
    (hlarge : b.toNat = 0xF4 → b₁.toNat ≤ 0x8F) (h₂ : 0x80 ≤ b₂.toNat ∧ b₂.toNat ≤ 0xBF)
    (h₃ : 0x80 ≤ b₃.toNat ∧ b₃.toNat ≤ 0xBF) :
    decodeFrom position none (b :: b₁ :: b₂ :: b₃ :: bytes) =
      (Char.ofNat ((((b.toNat - 0xF0) * 64 + (b₁.toNat - 0x80)) * 64 + (b₂.toNat - 0x80)) * 64 +
        (b₃.toNat - 0x80)) :: ·) <$> decodeFrom (position + 1 + 1 + 1 + 1) none bytes := by
  rw [decodeFrom_opens (lead_of_four h.1 h.2),
    decodeFrom_middle (by split <;> omega) (by split <;> omega), decodeFrom_middle h₂.1 h₂.2,
    decodeFrom_last h₃.1 h₃.2]

end Whole

lemma toNat_ofNat_of_lt {n : Nat} (h : n < 0x100) : (UInt8.ofNat n).toNat = n := by
  rw [UInt8.toNat_ofNat']
  omega

/-- The encoding of a character is decoded as this character. -/
lemma decodeFrom_encodeChar (position : Nat) (c : Char) (bytes : List UInt8) :
    ∃ position', decodeFrom position none (String.utf8EncodeChar c ++ bytes) =
      (c :: ·) <$> decodeFrom position' none bytes := by
  obtain ⟨v, hv, rfl⟩ : ∃ v, v.isValidChar ∧ Char.ofNat v = c := ⟨c.toNat, c.valid, c.ofNat_toNat⟩
  have hranges : v < 0x80 ∨ (0x80 ≤ v ∧ v < 0x800) ∨ (0x800 ≤ v ∧ v < 0x10000) ∨
      (0x10000 ≤ v ∧ v < 0x110000) := by
    unfold Nat.isValidChar at hv
    omega
  have hlast := toNat_ofNat_of_lt (n := 0x80 + v % 64) (by omega)
  have hmiddle := toNat_ofNat_of_lt (n := 0x80 + v / 64 % 64) (by omega)
  rcases hranges with hone | ⟨hlow, hhigh⟩ | ⟨hlow, hhigh⟩ | ⟨hlow, hhigh⟩
  · have hfirst := toNat_ofNat_of_lt (n := v) (by omega)
    have hlead := lead_of_one (b := UInt8.ofNat v) (by omega)
    rw [encodeChar_one hone, List.singleton_append, decodeFrom_whole hlead, hfirst]
    exact ⟨_, rfl⟩
  · have hfirst := toNat_ofNat_of_lt (n := 0xC0 + v / 64) (by omega)
    rw [encodeChar_two hlow hhigh, List.cons_append, List.singleton_append,
      decodeFrom_two (by omega) (by omega), hfirst, hlast,
      show (0xC0 + v / 64 - 0xC0) * 64 + (0x80 + v % 64 - 0x80) = v by omega]
    exact ⟨_, rfl⟩
  · have hfirst := toNat_ofNat_of_lt (n := 0xE0 + v / 4096) (by omega)
    unfold Nat.isValidChar at hv
    rw [encodeChar_three hlow hhigh hv, List.cons_append, List.cons_append, List.singleton_append,
      decodeFrom_three (by omega) (by omega) (by omega) (by omega) (by omega), hfirst, hmiddle,
      hlast, show ((0xE0 + v / 4096 - 0xE0) * 64 + (0x80 + v / 64 % 64 - 0x80)) * 64 +
        (0x80 + v % 64 - 0x80) = v by omega]
    exact ⟨_, rfl⟩
  · have hfirst := toNat_ofNat_of_lt (n := 0xF0 + v / 262144) (by omega)
    have hsecond := toNat_ofNat_of_lt (n := 0x80 + v / 4096 % 64) (by omega)
    rw [encodeChar_four hlow hhigh, List.cons_append, List.cons_append, List.cons_append,
      List.singleton_append, decodeFrom_four (by omega) (by omega) (by omega) (by omega) (by omega)
        (by omega), hfirst, hsecond, hmiddle, hlast,
      show (((0xF0 + v / 262144 - 0xF0) * 64 + (0x80 + v / 4096 % 64 - 0x80)) * 64 +
        (0x80 + v / 64 % 64 - 0x80)) * 64 + (0x80 + v % 64 - 0x80) = v by omega]
    exact ⟨_, rfl⟩

lemma decodeFrom_encode (position : Nat) (cs : List Char) :
    decodeFrom position none (encode cs) = .ok cs := by
  induction cs generalizing position with
  | nil => rfl
  | cons c cs ih =>
    obtain ⟨position', hdecode⟩ := decodeFrom_encodeChar position c (encode cs)
    rw [encode, List.flatMap_cons]
    exact hdecode.trans (by rw [ih]; rfl)

/-- A byte string is decoded exactly if it is the encoding of a text, and to this text. -/
theorem decode_eq_ok_iff {bytes : List UInt8} {cs : List Char} :
    decode bytes = .ok cs ↔ bytes = encode cs := by
  constructor
  · intro h
    exact @eq_encode_of_decodeFrom 0 none bytes cs (by simp) h
  · rintro rfl
    exact decodeFrom_encode 0 cs

@[simp] lemma decode_encode (cs : List Char) : decode (encode cs) = .ok cs :=
  decode_eq_ok_iff.2 rfl

end Varscript.Text.Utf8
