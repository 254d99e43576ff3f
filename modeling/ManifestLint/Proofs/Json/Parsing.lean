import ManifestLint.Json.Parser
import ManifestLint.Proofs.Readers

/-!
# JSON texts are read as what they say

The reader takes every way to write a tree, and gives that tree. So a text says one thing at most.
Main statements: `parse?_of_spells`, `spells_unique`.

* `Follows`: what may stand behind a value, so that the reader knows where a number ends;
* `Reads`: a reader takes every text of a part, as long as the text is not longer than a bound.
-/

namespace ManifestLint.Json

open Reader

theorem blank_nil : Blank [] := by
  intro c mem
  cases mem

/-! ## What stands behind a value -/

/-- A character that a number goes on with. -/
def continuesNumber (c : Char) : Bool := c.isDigit || c == '.' || c == 'e' || c == 'E'

/-- A text that no value goes on with. -/
def Follows (rest : List Char) : Prop := ∀ c, rest.head? = some c → continuesNumber c = false

/-- A text that a value begins: neither a blank nor the end of an array or object comes first. -/
def Opens (text : List Char) : Prop :=
  ∃ c, text.head? = some c ∧ isBlank c = false ∧ c ≠ ']' ∧ c ≠ '\x7d'

theorem follows_nil : Follows [] := by
  intro c h
  cases h

theorem follows_cons {c : Char} (h : continuesNumber c = false) (rest : List Char) :
    Follows (c :: rest) := by
  intro d first
  cases first
  exact h

theorem continuesNumber_of_isBlank {c : Char} (h : isBlank c = true) : continuesNumber c = false := by
  simp only [isBlank, Bool.or_eq_true, beq_iff_eq] at h
  obtain ((rfl | rfl) | rfl) | rfl := h <;> rfl

theorem Follows.blank_append {blank rest : List Char} (h : Blank blank) (follows : Follows rest) :
    Follows (blank ++ rest) := by
  cases blank with
  | nil => exact follows
  | cons c more => exact follows_cons (continuesNumber_of_isBlank (h c List.mem_cons_self)) _

theorem Opens.append {text : List Char} (h : Opens text) (rest : List Char) : Opens (text ++ rest) := by
  obtain ⟨c, first, opens⟩ := h
  refine ⟨c, ?_, opens⟩
  rw [List.head?_append, first]
  rfl

/-- Blanks before a value are passed over, and nothing else. -/
theorem dropWhile_of_opens {blank text : List Char} (h : Blank blank) (opens : Opens text) :
    (blank ++ text).dropWhile isBlank = text := by
  obtain ⟨c, first, solid, -⟩ := opens
  rw [List.dropWhile_append_of_pos h]
  cases text with
  | nil => cases first
  | cons d rest =>
    cases first
    exact List.dropWhile_cons_of_neg (by simp [solid])

theorem opens_cons {c : Char} (h : isBlank c = false ∧ c ≠ ']' ∧ c ≠ '\x7d') (rest : List Char) :
    Opens (c :: rest) := ⟨c, rfl, h⟩

namespace Parser

theorem blanks_append {blank rest : List Char} (h : Blank blank)
    (ends : ∀ c, rest.head? = some c → isBlank c = false) :
    blanks (blank ++ rest) = some ((), rest) := by
  unfold blanks
  rw [bind_of_eq (run_append h ends)]
  rfl

/-! ## Numbers -/

theorem digits_append {text rest : List Char} (h : IsDigits text)
    (ends : ∀ c, rest.head? = some c → c.isDigit = false) :
    digits (text ++ rest) = some (text, rest) :=
  runSome_append h.1 h.2 ends

theorem IsDigits.head? {text : List Char} (h : IsDigits text) :
    ∃ c, text.head? = some c ∧ c.isDigit = true := by
  cases text with
  | nil => exact absurd rfl h.1
  | cons c rest => exact ⟨c, rfl, h.2 c List.mem_cons_self⟩

theorem head?_ne_of_isDigit {text : List Char} {other : Char} (solid : other.isDigit = false)
    (h : ∃ c, text.head? = some c ∧ c.isDigit = true) : text.head? ≠ some other := by
  obtain ⟨c, first, digit⟩ := h
  rw [first]
  rintro ⟨⟩
  rw [digit] at solid
  cases solid

theorem whole_append {text rest : List Char} (h : Whole text)
    (ends : ∀ c, rest.head? = some c → c.isDigit = false) :
    whole (text ++ rest) = some (text, rest) := by
  unfold whole
  cases h with
  | zero =>
    rw [bind_of_eq (accept_append ['0'] rest)]
    rfl
  | digits digits first =>
    have other : (text ++ rest).head? ≠ some '0' := by
      obtain ⟨c, starts, -⟩ := IsDigits.head? digits
      rw [starts] at first
      rw [List.head?_append, starts]
      exact first
    rw [bind_of_eq (accept_of_head?_ne other)]
    exact digits_append digits ends

theorem fraction_append {text rest : List Char} (h : Fraction text)
    (ends : ∀ c, rest.head? = some c → c.isDigit = false ∧ c ≠ '.') :
    fraction (text ++ rest) = some (text, rest) := by
  unfold fraction
  cases h with
  | none =>
    have other : ([] ++ rest).head? ≠ some '.' := fun first => (ends '.' first).2 rfl
    rw [bind_of_eq (accept_of_head?_ne other)]
    rfl
  | digits digits =>
    rw [List.cons_append, bind_of_eq (accept_cons '.' _), if_pos rfl,
      bind_of_eq (digits_append digits fun c first => (ends c first).1)]
    rfl

theorem sign_append {text rest : List Char} (h : text ∈ [[], ['+'], ['-']])
    (ends : ∃ c, rest.head? = some c ∧ c.isDigit = true) :
    sign (text ++ rest) = some (text, rest) := by
  have plus : rest.head? ≠ some '+' := head?_ne_of_isDigit rfl ends
  have minus : rest.head? ≠ some '-' := head?_ne_of_isDigit rfl ends
  unfold sign
  simp only [List.mem_cons, List.not_mem_nil, or_false] at h
  obtain rfl | rfl | rfl := h
  · rw [List.nil_append, bind_of_eq (accept_of_head?_ne plus)]
    unfold optional
    rw [if_neg Bool.false_ne_true, bind_of_eq (accept_of_head?_ne minus)]
    rfl
  · rw [bind_of_eq (accept_append ['+'] rest)]
    rfl
  · rw [bind_of_eq (accept_of_head?_ne (by simp)), if_neg Bool.false_ne_true]
    unfold optional
    rw [bind_of_eq (accept_append ['-'] rest)]
    rfl

theorem exponent_append {text rest : List Char} (h : Exponent text) (follows : Follows rest) :
    exponent (text ++ rest) = some (text, rest) := by
  unfold exponent
  cases h with
  | none =>
    have small : rest.head? ≠ some 'e' := fun first => by cases follows 'e' first
    have capital : rest.head? ≠ some 'E' := fun first => by cases follows 'E' first
    rw [List.nil_append, bind_of_eq (accept_of_head?_ne small), if_neg Bool.false_ne_true,
      bind_of_eq (accept_of_head?_ne capital)]
    rfl
  | @digits mark signed text mark_mem sign_mem digits =>
    have ends (c : Char) (first : rest.head? = some c) : c.isDigit = false := by
      have := follows c first
      simp only [continuesNumber, Bool.or_eq_false_iff] at this
      exact this.1.1.1
    have starts : ∃ c, (text ++ rest).head? = some c ∧ c.isDigit = true := by
      obtain ⟨c, first, digit⟩ := IsDigits.head? digits
      exact ⟨c, by rw [List.head?_append, first]; rfl, digit⟩
    have signRead := sign_append sign_mem starts
    have digitsRead := digits_append digits ends
    rw [List.append_assoc, List.cons_append]
    simp only [List.mem_cons, List.not_mem_nil, or_false] at mark_mem
    obtain rfl | rfl := mark_mem
    · rw [bind_of_eq (accept_cons 'e' _), if_pos rfl, bind_of_eq signRead, bind_of_eq digitsRead]
      rfl
    · rw [bind_of_eq (accept_of_head?_ne (by simp)), if_neg Bool.false_ne_true,
        bind_of_eq (accept_cons 'E' _), if_pos rfl, bind_of_eq signRead, bind_of_eq digitsRead]
      rfl

theorem Whole.head? {text : List Char} (h : Whole text) :
    ∃ c, text.head? = some c ∧ c.isDigit = true := by
  cases h with
  | zero => exact ⟨'0', rfl, rfl⟩
  | digits digits => exact IsDigits.head? digits

/-- Behind the whole part of a number no digit follows, and behind the fraction no point either. -/
theorem not_isDigit_of_exponent {text rest : List Char} (h : Exponent text) (follows : Follows rest)
    {c : Char} (first : (text ++ rest).head? = some c) : c.isDigit = false ∧ c ≠ '.' := by
  cases h with
  | none =>
    have ends := follows c first
    simp only [continuesNumber, Bool.or_eq_false_iff, beq_eq_false_iff_ne] at ends
    exact ⟨ends.1.1.1, ends.1.1.2⟩
  | digits mark_mem =>
    cases first
    simp only [List.mem_cons, List.not_mem_nil, or_false] at mark_mem
    obtain rfl | rfl := mark_mem <;> decide

theorem number_append {text rest : List Char} (h : Number text) (follows : Follows rest) :
    number (text ++ rest) = some (text, rest) := by
  obtain @⟨signed, wholePart, fractionPart, exponentPart, sign_mem, whole_ok, fraction_ok, exponent_ok⟩ := h
  have afterFraction (c : Char) (first : (exponentPart ++ rest).head? = some c) :=
    not_isDigit_of_exponent exponent_ok follows first
  have afterWhole (c : Char) (first : (fractionPart ++ (exponentPart ++ rest)).head? = some c) :
      c.isDigit = false := by
    cases fraction_ok with
    | none => exact (afterFraction c first).1
    | digits => cases first; rfl
  have signRead : optional '-' (signed ++ (wholePart ++ (fractionPart ++ (exponentPart ++ rest)))) =
      some (signed, wholePart ++ (fractionPart ++ (exponentPart ++ rest))) := by
    unfold optional
    simp only [List.mem_cons, List.not_mem_nil, or_false] at sign_mem
    obtain rfl | rfl := sign_mem
    · obtain ⟨c, first, digit⟩ := Whole.head? whole_ok
      have other : (wholePart ++ (fractionPart ++ (exponentPart ++ rest))).head? ≠ some '-' := by
        refine head?_ne_of_isDigit rfl ⟨c, ?_, digit⟩
        rw [List.head?_append, first]
        rfl
      rw [List.nil_append, bind_of_eq (accept_of_head?_ne other)]
      rfl
    · rw [List.singleton_append, bind_of_eq (accept_cons '-' _)]
      rfl
  unfold number
  rw [List.append_assoc, List.append_assoc, List.append_assoc, bind_of_eq signRead,
    bind_of_eq (whole_append whole_ok afterWhole),
    bind_of_eq (fraction_append fraction_ok afterFraction),
    bind_of_eq (exponent_append exponent_ok follows)]
  rfl

/-! ## Strings -/

theorem fourDigits_append {code : Nat} {text rest : List Char} (h : FourDigits code text) :
    fourDigits (text ++ rest) = some (code, rest) := by
  unfold fourDigits
  rw [bind_of_eq (take_append h.1), h.2]
  rfl

theorem charOfCode?_toNat (c : Char) : Text.charOfCode? c.toNat = some c := by
  exact dif_pos c.valid

/-- No character is one half of another. -/
theorem not_half (c : Char) : ¬ (0xD800 ≤ c.toNat ∧ c.toNat < 0xE000) := by
  have valid : c.toNat.isValidChar := c.valid
  unfold Nat.isValidChar at valid
  omega

theorem codePoint_of_code {c : Char} {text rest : List Char} (h : FourDigits c.toNat text) :
    codePoint (text ++ rest) = some (c, rest) := by
  have whole : ¬ (0xD800 ≤ c.toNat ∧ c.toNat < 0xDC00) := by
    have := not_half c
    omega
  unfold codePoint
  rw [bind_of_eq (fourDigits_append h), if_neg whole]
  simp [pure_apply, charOfCode?_toNat]

theorem codePoint_of_halves {c : Char} {first second : Nat} {high low rest : List Char}
    (upper : FourDigits first high) (lower : FourDigits second low)
    (isFirst : 0xD800 ≤ first ∧ first < 0xDC00) (isSecond : 0xDC00 ≤ second ∧ second < 0xE000)
    (sum : c.toNat = 0x10000 + (first - 0xD800) * 0x400 + (second - 0xDC00)) :
    codePoint (high ++ '\\' :: 'u' :: low ++ rest) = some (c, rest) := by
  have marked : expect ['\\', 'u'] ('\\' :: 'u' :: (low ++ rest)) = some ((), low ++ rest) :=
    expect_append ['\\', 'u'] (low ++ rest)
  unfold codePoint
  rw [List.append_assoc, bind_of_eq (fourDigits_append upper), if_pos isFirst]
  refine (bind_of_eq marked).trans ((bind_of_eq (fourDigits_append lower)).trans ?_)
  refine (bind_of_eq (guard_of isSecond rest)).trans ?_
  simp [← sum, pure_apply, charOfCode?_toNat]

theorem escape_of_short {letter c : Char} (listed : (letter, c) ∈ shortEscapes) (rest : List Char) :
    escape (letter :: rest) = some (c, rest) := by
  have all : ∀ pair ∈ shortEscapes, pair.1 ≠ 'u' ∧ shortEscapes.lookup pair.1 = some pair.2 := by
    decide
  obtain ⟨other, found⟩ := all _ listed
  unfold escape
  rw [bind_of_eq (next_cons letter rest), if_neg other, found]
  rfl

theorem escape_of_code (text : List Char) : escape ('u' :: text) = codePoint text := by
  unfold escape
  rw [bind_of_eq (next_cons 'u' text), if_pos rfl]

theorem character_of_escape (text : List Char) : character ('\\' :: text) = escape text := by
  unfold character
  rw [bind_of_eq (next_cons '\\' text), if_pos rfl]

/-- A character is read off each way to write it. -/
theorem character_append {c : Char} {text rest : List Char} (h : Written c text) :
    character (text ++ rest) = some (c, rest) := by
  cases h with
  | itself plain =>
    have other : c ≠ '\\' := by
      rintro rfl
      cases plain
    unfold character
    rw [List.singleton_append, bind_of_eq (next_cons c rest), if_neg other]
    exact bind_of_eq (guard_of plain rest)
  | short listed =>
    exact (character_of_escape _).trans (escape_of_short listed rest)
  | code digits =>
    exact (character_of_escape _).trans ((escape_of_code _).trans (codePoint_of_code digits))
  | halves upper lower isFirst isSecond sum =>
    exact (character_of_escape _).trans
      ((escape_of_code _).trans (codePoint_of_halves upper lower isFirst isSecond sum))

/-- What is written for a character is not the end of the string. -/
theorem head?_of_written {c : Char} {text : List Char} (h : Written c text) :
    ∃ d, text.head? = some d ∧ d ≠ '"' := by
  cases h with
  | itself plain =>
    refine ⟨c, rfl, ?_⟩
    rintro rfl
    cases plain
  | short | code | halves => exact ⟨'\\', rfl, by decide⟩

theorem characters_append {content text : List Char} (h : Characters content text) (taken rest : List Char) :
    iterate characterStep taken (text ++ '"' :: rest) = some (taken.reverse ++ content, rest) := by
  induction h generalizing taken with
  | nil =>
    have ended : characterStep taken ('"' :: rest) = some (.inr taken.reverse, rest) := by
      unfold characterStep
      rw [bind_of_eq (accept_cons '"' rest)]
      rfl
    rw [List.nil_append, iterate, ended, List.append_nil]
  | @cons c written content text first more ih =>
    obtain ⟨d, starts, other⟩ := head?_of_written first
    have step : characterStep taken (written ++ (text ++ '"' :: rest)) =
        some (.inl (c :: taken), text ++ '"' :: rest) := by
      have going : (written ++ (text ++ '"' :: rest)).head? ≠ some '"' := by
        rw [List.head?_append, starts]
        rintro ⟨⟩
        exact other rfl
      unfold characterStep
      rw [bind_of_eq (accept_of_head?_ne going), if_neg Bool.false_ne_true,
        bind_of_eq (character_append first)]
      rfl
    have nonempty : written ≠ [] := by
      rintro rfl
      cases starts
    have shorter : (text ++ '"' :: rest).length < (written ++ (text ++ '"' :: rest)).length := by
      have := List.length_pos_iff.2 nonempty
      simp only [List.length_append]
      omega
    rw [List.append_assoc, iterate, step]
    dsimp only
    rw [if_pos shorter, ih (c :: taken), List.reverse_cons, List.append_assoc, List.singleton_append]

theorem quoted_append {content : String} {text : List Char} (h : Quoted content text)
    (rest : List Char) :
    quoted (text ++ rest) = some (content, rest) := by
  obtain ⟨characters⟩ := h
  have read := characters_append characters [] rest
  unfold quoted
  rw [List.append_assoc, List.cons_append, List.singleton_append, bind_of_eq (expect_cons '"' _),
    bind_of_eq read]
  simp [pure_apply]

/-! ## Arrays and objects -/

section

variable {α : Type} {part : Reader Char α} {P : α → List Char → Prop} {bound : Nat}

/-- A reader takes every text of a part that is not too long, and such a text opens a value. -/
def Reads (part : Reader Char α) (P : α → List Char → Prop) (bound : Nat) : Prop :=
  ∀ item text, P item text → text.length ≤ bound → Opens text ∧
    ∀ rest, Follows rest → part (text ++ rest) = some (item, rest)

theorem blanks_of_opens {before text : List Char} (h : Blank before) (opens : Opens text) :
    blanks (before ++ text) = some ((), text) := by
  refine blanks_append h ?_
  obtain ⟨c, first, solid, -⟩ := opens
  rintro d starts
  rw [first] at starts
  cases starts
  exact solid

/-- A part with blanks around it is read off, whatever is done with it. -/
theorem padded_append {β : Type} (reads : Reads part P bound) {item : α} {before text after : List Char}
    (blankBefore : Blank before) (spelled : P item text) (short : text.length ≤ bound)
    (blankAfter : Blank after) {c : Char} (solid : isBlank c = false) (ends : continuesNumber c = false)
    (rest : List Char) (then_ : α → Reader Char β) :
    (do blanks; let item ← part; blanks; then_ item : Reader Char β)
      (before ++ text ++ after ++ c :: rest) = then_ item (c :: rest) := by
  obtain ⟨opens, read⟩ := reads item text spelled short
  have behind : blanks (after ++ c :: rest) = some ((), c :: rest) := by
    refine blanks_append blankAfter ?_
    rintro d ⟨⟩
    exact solid
  have follows : Follows (after ++ c :: rest) := (follows_cons ends rest).blank_append blankAfter
  rw [List.append_assoc, List.append_assoc, bind_of_eq (blanks_of_opens blankBefore (opens.append _)),
    bind_of_eq (read _ follows), bind_of_eq behind]

theorem partStep_comma (reads : Reads part P bound) {item : α} {before text after : List Char}
    (blankBefore : Blank before) (spelled : P item text) (short : text.length ≤ bound)
    (blankAfter : Blank after) (closing : Char) (taken : List α) (rest : List Char) :
    partStep part closing taken (before ++ text ++ after ++ ',' :: rest) =
      some (.inl (item :: taken), rest) := by
  refine (padded_append reads blankBefore spelled short blankAfter rfl rfl rest _).trans ?_
  rw [bind_of_eq (accept_cons ',' rest)]
  rfl

/-- What is listed opens a value behind some blanks. -/
theorem opens_of_listed (reads : Reads part P bound) {parts : List α} {text : List Char}
    (listed : Listed P parts text) (short : text.length ≤ bound) :
    ∃ blank more, text = blank ++ more ∧ Blank blank ∧ Opens more := by
  cases listed with
  | @last item before text after blankBefore spelled blankAfter =>
    simp only [List.length_append] at short
    have opens := (reads item text spelled (by omega)).1
    exact ⟨before, text ++ after, List.append_assoc _ _ _, blankBefore, opens.append _⟩
  | @cons item parts before text after later blankBefore spelled blankAfter more =>
    simp only [List.length_append, List.length_cons] at short
    have opens := (reads item text spelled (by omega)).1
    exact ⟨before, text ++ (after ++ ',' :: later), by simp only [List.append_assoc], blankBefore,
      opens.append _⟩

variable {closing : Char} (isClosing : closing = ']' ∨ closing = '\x7d')
include isClosing

theorem partStep_closing (reads : Reads part P bound) {item : α} {before text after : List Char}
    (blankBefore : Blank before) (spelled : P item text) (short : text.length ≤ bound)
    (blankAfter : Blank after) (taken : List α) (rest : List Char) :
    partStep part closing taken (before ++ text ++ after ++ closing :: rest) =
      some (.inr (item :: taken).reverse, rest) := by
  have solid : isBlank closing = false ∧ continuesNumber closing = false ∧ closing ≠ ',' := by
    obtain rfl | rfl := isClosing <;> decide
  refine (padded_append reads blankBefore spelled short blankAfter solid.1 solid.2.1 rest _).trans ?_
  have other : (closing :: rest).head? ≠ some ',' := by
    rintro ⟨⟩
    exact solid.2.2 rfl
  rw [bind_of_eq (accept_of_head?_ne other), if_neg Bool.false_ne_true,
    bind_of_eq (expect_cons closing rest)]
  rfl

/-- All parts up to the closing bracket are read off, by induction on how they are listed. -/
theorem parts_append (reads : Reads part P bound) {parts : List α} {text : List Char}
    (listed : Listed P parts text) (short : text.length ≤ bound) (taken : List α) (rest : List Char) :
    iterate (partStep part closing) taken (text ++ closing :: rest) =
      some (taken.reverse ++ parts, rest) := by
  induction listed generalizing taken with
  | @last item before text after blankBefore spelled blankAfter =>
    simp only [List.length_append] at short
    rw [iterate, partStep_closing isClosing reads blankBefore spelled (by omega) blankAfter]
    simp
  | @cons item parts before text after later blankBefore spelled blankAfter more ih =>
    simp only [List.length_append, List.length_cons] at short
    have step := partStep_comma reads blankBefore spelled (by omega) blankAfter closing taken
      (later ++ closing :: rest)
    have shorter : (later ++ closing :: rest).length <
        (before ++ text ++ after ++ ',' :: (later ++ closing :: rest)).length := by
      simp only [List.length_append, List.length_cons]
      omega
    rw [List.append_assoc, List.cons_append, iterate, step]
    dsimp only
    rw [if_pos shorter, ih (by omega), List.reverse_cons, List.append_assoc, List.singleton_append]

theorem bracketed_append (reads : Reads part P bound) {opening : Char} {parts : List α}
    {text : List Char} (h : Bracketed P opening closing parts text) (short : text.length ≤ bound + 2) :
    ∃ body, text = opening :: body ∧
      ∀ rest, bracketed part closing (body ++ rest) = some (parts, rest) := by
  cases h with
  | @empty gap blank =>
    refine ⟨gap ++ [closing], rfl, fun rest => ?_⟩
    have solid : isBlank closing = false := by
      obtain rfl | rfl := isClosing <;> rfl
    have left : ((gap ++ [closing]) ++ rest).dropWhile isBlank = closing :: rest := by
      rw [List.append_assoc, List.dropWhile_append_of_pos blank, List.singleton_append,
        List.dropWhile_cons_of_neg (by simp [solid])]
    unfold bracketed
    rw [left]
    exact if_pos rfl
  | @full parts inner listed =>
    simp only [List.length_append, List.length_cons, List.length_nil] at short
    refine ⟨inner ++ [closing], rfl, fun rest => ?_⟩
    have going : (((inner ++ [closing]) ++ rest).dropWhile isBlank).head? ≠ some closing := by
      obtain ⟨blank, more, rfl, allBlank, opens⟩ := opens_of_listed reads listed (by omega)
      obtain ⟨c, first, -, array, object⟩ := opens.append ([closing] ++ rest)
      rw [List.append_assoc, List.append_assoc,
        dropWhile_of_opens allBlank (opens.append ([closing] ++ rest)), first]
      rintro ⟨⟩
      obtain rfl | rfl := isClosing
      · exact array rfl
      · exact object rfl
    unfold bracketed
    rw [if_neg going, List.append_assoc, List.singleton_append,
      parts_append isClosing reads listed (by omega)]
    simp

end

theorem reads_member {value : Reader Char Tree} {bound : Nat} (reads : Reads value Spells bound) :
    Reads (member value) (Member Spells) bound := by
  rintro ⟨key, tree⟩ text h short
  obtain @⟨_, _, name, before, after, text, quoted, blankBefore, blankAfter, spelled⟩ := h
  simp only [List.length_append, List.length_cons] at short
  obtain ⟨opens, read⟩ := reads tree text spelled (by omega)
  constructor
  · obtain ⟨characters⟩ := quoted
    exact opens_cons (by decide) _
  · intro rest follows
    have colon : blanks (before ++ (':' :: (after ++ (text ++ rest)))) =
        some ((), ':' :: (after ++ (text ++ rest))) := by
      refine blanks_append blankBefore ?_
      rintro d ⟨⟩
      rfl
    unfold member
    simp only [List.append_assoc, List.cons_append]
    rw [bind_of_eq (quoted_append quoted _), bind_of_eq colon, bind_of_eq (expect_cons ':' _),
      bind_of_eq (blanks_of_opens blankAfter (opens.append rest)), bind_of_eq (read rest follows)]
    rfl

/-! ## Values -/

/-- A number begins with a digit or a minus sign. -/
theorem head?_of_number {literal : List Char} (h : Number literal) :
    ∃ c, literal.head? = some c ∧ (c.isDigit = true ∨ c = '-') := by
  obtain @⟨signed, wholePart, fractionPart, exponentPart, sign_mem, whole_ok, -, -⟩ := h
  simp only [List.mem_cons, List.not_mem_nil, or_false] at sign_mem
  obtain rfl | rfl := sign_mem
  · obtain ⟨c, first, digit⟩ := Whole.head? whole_ok
    refine ⟨c, ?_, .inl digit⟩
    simp only [List.nil_append, List.append_assoc, List.head?_append, first]
    rfl
  · exact ⟨'-', rfl, .inr rfl⟩

theorem opens_of_isDigit {c : Char} (h : c.isDigit = true ∨ c = '-') :
    isBlank c = false ∧ c ≠ ']' ∧ c ≠ '\x7d' := by
  obtain digit | rfl := h
  · refine ⟨?_, ?_, ?_⟩
    · rw [Bool.eq_false_iff]
      intro blank
      simp only [isBlank, Bool.or_eq_true, beq_iff_eq] at blank
      obtain ((rfl | rfl) | rfl) | rfl := blank <;> cases digit
    · rintro rfl
      cases digit
    · rintro rfl
      cases digit
  · decide

theorem opens_of_spells {tree : Tree} {text : List Char} (h : Spells tree text) : Opens text := by
  cases h with
  | null | true | false => exact opens_cons (by decide) _
  | number number =>
    obtain ⟨c, first, begins⟩ := head?_of_number number
    exact ⟨c, first, opens_of_isDigit begins⟩
  | string quoted =>
    obtain ⟨characters⟩ := quoted
    exact opens_cons (by decide) _
  | array bracketed => cases bracketed <;> exact opens_cons (by decide) _
  | object bracketed => cases bracketed <;> exact opens_cons (by decide) _

theorem value_succ (depth : Nat) (input : List Char) :
    value (depth + 1) input = valueAt (value depth) input.head? input := rfl

/-- What no other value begins with is read as a number. -/
theorem valueAt_of_isDigit (inner : Reader Char Tree) {c : Char} (h : c.isDigit = true ∨ c = '-') :
    valueAt inner (some c) = do return .number (← number) := by
  unfold valueAt
  split
  case h_7 => rfl
  all_goals
    next same =>
      cases same
      simp at h

/-- The reader of values takes every way to write a tree, by induction on the brackets that it may still
go into. -/
theorem reads_value (depth : Nat) : Reads (value depth) Spells depth := by
  induction depth with
  | zero =>
    intro tree text h short
    obtain ⟨c, first, -⟩ := opens_of_spells h
    obtain rfl := List.length_eq_zero_iff.1 (Nat.le_zero.1 short)
    cases first
  | succ depth ih =>
    intro tree text h short
    refine ⟨opens_of_spells h, fun rest follows => ?_⟩
    rw [value_succ]
    cases h with
    | null => exact bind_of_eq (expect_append "null".toList rest)
    | true => exact bind_of_eq (expect_append "true".toList rest)
    | false => exact bind_of_eq (expect_append "false".toList rest)
    | number number =>
      obtain ⟨c, first, begins⟩ := head?_of_number number
      have starts : (text ++ rest).head? = some c := by
        rw [List.head?_append, first]
        rfl
      rw [starts, valueAt_of_isDigit _ begins]
      exact bind_of_eq (number_append number follows)
    | string quoted =>
      have read := quoted_append quoted rest
      obtain ⟨characters⟩ := quoted
      exact bind_of_eq read
    | array h =>
      obtain ⟨body, rfl, read⟩ := bracketed_append (.inl rfl) ih h (by omega)
      refine (bind_of_eq (expect_cons '[' (body ++ rest))).trans ?_
      exact bind_of_eq (read rest)
    | object h =>
      obtain ⟨body, rfl, read⟩ := bracketed_append (.inr rfl) (reads_member ih) h (by omega)
      refine (bind_of_eq (expect_cons '\x7b' (body ++ rest))).trans ?_
      exact bind_of_eq (read rest)

end Parser

/-! ## Whole texts -/

/-- Every way to write a tree, with blanks around it, is read as that tree. -/
theorem parse?_of_spells {tree : Tree} {before text after : List Char} (blankBefore : Blank before)
    (h : Spells tree text) (blankAfter : Blank after) :
    parse? (before ++ text ++ after) = some tree := by
  obtain ⟨opens, read⟩ := Parser.reads_value (before ++ text ++ after).length tree text h
    (by simp only [List.length_append]; omega)
  have follows : Follows after := by
    simpa using follows_nil.blank_append blankAfter
  have nothing (c : Char) : ([] : List Char).head? = some c → isBlank c = false := nofun
  have left := Parser.blanks_append blankAfter nothing
  rw [List.append_nil] at left
  unfold parse? readAll?
  rw [List.append_assoc, bind_of_eq (Parser.blanks_of_opens blankBefore (opens.append after)),
    ← List.append_assoc, bind_of_eq (read after follows), bind_of_eq left]
  rfl

/-- A text says one thing at most. -/
theorem spells_unique {tree other : Tree} {text : List Char} (h : Spells tree text)
    (h' : Spells other text) : other = tree := by
  have first := parse?_of_spells blank_nil h blank_nil
  have second := parse?_of_spells blank_nil h' blank_nil
  rw [first] at second
  exact (Option.some.inj second).symm

end ManifestLint.Json
