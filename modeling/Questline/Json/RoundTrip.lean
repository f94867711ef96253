import Questline.Json.Parser
import Questline.Json.Printer

/-! # Texts of values read back

What is written is read back as it was. Tokens are told apart again because a numeral is never
followed by what could be part of it, and the reader puts the tokens of a value together to that
value whatever frames are open around it.

* `Token.scan_chars`: the tokens of the characters of tokens.
* `Json.reread`: a value as it is read back. `Json.readValue_tokens`: it is read from the tokens of
  the value, in front of any other tokens. `Json.ofText?_text_eq_reread`: it is read from its text.
* `Json.ofText?_text`: the value of the text of a `Printable` value. Printable are integers that are
  words, numbers whose numeral reads back, and what is built of printable values.
* `Json.ofDocument?_text`: the same for documents, which are not nested too deep. -/

namespace Questline

namespace Token

/-! ### Strings -/

/-- An escaped character gives its code. -/
theorem stringBody_escaped (c : Char) (tail : List Char) :
    stringBody (escaped c ++ tail) = prepend c.toNat (stringBody tail) := by
  unfold escaped
  iterate 7
    split
    · subst_vars; simp [stringBody, unescape?]
  split
  · rename_i h
    have key : ∀ n < 32, Hex.ofDigits? (Hex.digits 4 n) = some n := by decide
    have hl : ∀ n, Hex.digits 4 n = [Hex.digit (n / 16 / 16 / 16 % 16),
        Hex.digit (n / 16 / 16 % 16), Hex.digit (n / 16 % 16), Hex.digit (n % 16)] := fun _ => rfl
    have hk := key _ h
    rw [hl] at hk ⊢
    simp only [List.cons_append, List.nil_append, stringBody, hk]
  · rename_i h1 h2 _ _ _ _ _ h
    rw [List.cons_append, List.nil_append, stringBody]
    · rw [if_neg h]
    · intro he; exact h1 he
    · intro _ _ _ _ _ he; exact absurd he h2
    · intro _ _ he; exact absurd he h2

/-- The codes of a text between quotes. -/
theorem stringBody_text (s : List Char) (rest : List Char) :
    stringBody (s.flatMap escaped ++ '"' :: rest) = some (s.map Char.toNat, rest) := by
  induction s with
  | nil => rfl
  | cons c s ih => rw [List.flatMap_cons, List.append_assoc, stringBody_escaped, ih]; rfl

/-- No character is half of a pair. -/
theorem joinSurrogates_toNat (s : List Char) : joinSurrogates (s.map Char.toNat) = some s := by
  induction s with
  | nil => rfl
  | cons c s ih =>
    have hv : c.toNat < 0xD800 ∨ (0xDFFF < c.toNat ∧ c.toNat < 0x110000) := c.valid
    have h1 : isHighSurrogate c.toNat = false := by simp [isHighSurrogate]; omega
    have h2 : isLowSurrogate c.toNat = false := by simp [isLowSurrogate]; omega
    unfold joinSurrogates
    simp [h1, h2, ih]

/-! ### Numerals -/

/-- No digit follows. -/
def NoDigit (rest : List Char) : Prop := ∀ c ∈ rest.head?, Digit.ofChar? c = none

theorem digitRun_digitChars (ds : List Digit) {rest : List Char} (h : NoDigit rest) :
    digitRun (Numeral.digitChars ds ++ rest) = (ds, rest) := by
  induction ds with
  | nil =>
    cases rest with
    | nil => rfl
    | cons c rest => simp [Numeral.digitChars, digitRun, h c rfl]
  | cons d ds ih =>
    simp only [Numeral.digitChars, List.map_cons, List.cons_append, digitRun,
      Digit.ofChar?_toChar]
    rw [show List.map Digit.toChar ds = Numeral.digitChars ds from rfl, ih]

theorem wholePart_digits (n : Nat) {rest : List Char} (h : NoDigit rest) :
    wholePart (Numeral.digitChars (digits n) ++ rest) = some (n, rest) := by
  unfold wholePart
  rw [digitRun_digitChars _ h]
  obtain ⟨d, ds, he, hd⟩ := digits_head n
  have hv := ofDigits_digits n
  rw [he] at hv ⊢
  by_cases h0 : d = 0
  · simp [hd h0, h0] at hv ⊢; exact hv
  · simp [h0, hv]

/-- Nothing follows that could belong to a numeral. -/
def NumeralEnds (rest : List Char) : Prop :=
  ∀ c ∈ rest.head?, Digit.ofChar? c = none ∧ c ≠ '.' ∧ c ≠ 'e' ∧ c ≠ 'E'

theorem NumeralEnds.noDigit {rest : List Char} (h : NumeralEnds rest) : NoDigit rest :=
  fun c hc => (h c hc).1

theorem exponentPart_chars (e : Option Int) {rest : List Char} (h : NumeralEnds rest) :
    exponentPart (Numeral.exponentChars e ++ rest) = some (e, rest) := by
  cases e with
  | none =>
    cases rest with
    | nil => rfl
    | cons c rest =>
      obtain ⟨-, -, h1, h2⟩ := h c rfl
      simp only [Numeral.exponentChars, List.nil_append]
      unfold exponentPart
      split <;> first | rfl | (rename_i heq; simp at heq; exact absurd heq.1 (by assumption))
  | some e =>
    simp only [Numeral.exponentChars, List.cons_append]
    by_cases he : e < 0
    · simp only [he, if_true, exponentPart, exponentDigits]
      rw [digitRun_digitChars _ h.noDigit]
      obtain ⟨d, ds, hd, -⟩ := digits_head e.natAbs
      have hv : -(ofDigits (digits e.natAbs) : Int) = e := by rw [ofDigits_digits]; omega
      rw [hd] at hv ⊢
      simp only [hv]
    · simp only [he, if_false, exponentPart, exponentDigits]
      rw [digitRun_digitChars _ h.noDigit]
      obtain ⟨d, ds, hd, -⟩ := digits_head e.natAbs
      have hv : (ofDigits (digits e.natAbs) : Int) = e := by rw [ofDigits_digits]; omega
      rw [hd] at hv ⊢
      simp only [Bool.false_eq_true, if_false, hv]

theorem exponentChars_head (e : Option Int) {rest : List Char} (h : NumeralEnds rest) :
    ∀ c ∈ (Numeral.exponentChars e ++ rest).head?, Digit.ofChar? c = none ∧ c ≠ '.' := by
  cases e with
  | none => exact fun c hc => ⟨(h c hc).1, (h c hc).2.1⟩
  | some e =>
    intro c hc
    simp only [Numeral.exponentChars, List.cons_append, List.head?_cons, Option.mem_def,
      Option.some.injEq] at hc
    subst hc
    decide

theorem fractionPart_chars (ds : List Digit) (e : Option Int) {rest : List Char}
    (h : NumeralEnds rest) :
    fractionPart (Numeral.fractionChars ds ++ (Numeral.exponentChars e ++ rest)) =
      some (ds, Numeral.exponentChars e ++ rest) := by
  have hh := exponentChars_head e h
  generalize Numeral.exponentChars e ++ rest = more at hh
  cases ds with
  | nil =>
    simp only [Numeral.fractionChars, List.isEmpty_nil, if_true, List.nil_append]
    unfold fractionPart
    split
    · exact absurd rfl (hh _ rfl).2
    · rfl
  | cons d ds =>
    simp only [Numeral.fractionChars, List.isEmpty_cons, Bool.false_eq_true, if_false,
      List.cons_append, fractionPart]
    rw [digitRun_digitChars _ fun c hc => (hh c hc).1]

/-- **A numeral is read from its characters.** -/
theorem numeral_chars (n : Numeral) {rest : List Char} (h : NumeralEnds rest) :
    numeral n.negative (Numeral.digitChars (digits n.whole) ++ (Numeral.fractionChars n.fraction ++
      (Numeral.exponentChars n.exponent ++ rest))) = some (.num n, rest) := by
  unfold numeral
  have h1 : NoDigit
      (Numeral.fractionChars n.fraction ++ (Numeral.exponentChars n.exponent ++ rest)) := by
    cases hf : n.fraction with
    | nil => exact fun c hc => (exponentChars_head n.exponent h c hc).1
    | cons d ds =>
      intro c hc
      simp [Numeral.fractionChars] at hc
      subst hc; decide
  rw [wholePart_digits _ h1]
  simp only [Option.bind_eq_bind, Option.bind_some]
  rw [fractionPart_chars _ _ h]
  simp only [Option.bind_some]
  rw [exponentPart_chars _ h]
  rfl

/-! ### Texts -/

/-- A token that a text can hold, before a text that cannot be part of it. -/
def Fits (t : Token) (rest : List Char) : Prop :=
  match t with
  | .num _ => NumeralEnds rest
  | .str none => False
  | _ => True

theorem next_digit (d : Digit) (rest : List Char) :
    next d.toChar rest = numeral false (d.toChar :: rest) := by
  unfold next
  split <;> first | rfl | (rename_i h; exfalso; revert h; revert d; decide)

theorem isBlank_digit (d : Digit) : isBlank d.toChar = false := by
  revert d; decide

/-- **A token is read from its characters.** -/
theorem next_chars (t : Token) {rest : List Char} (h : t.Fits rest) :
    ∃ c cs, t.chars = c :: cs ∧ isBlank c = false ∧ next c (cs ++ rest) = some (t, rest) := by
  match t, h with
  | .openArr, _ => exact ⟨_, _, rfl, rfl, rfl⟩
  | .closeArr, _ => exact ⟨_, _, rfl, rfl, rfl⟩
  | .openObj, _ => exact ⟨_, _, rfl, rfl, rfl⟩
  | .closeObj, _ => exact ⟨_, _, rfl, rfl, rfl⟩
  | .comma, _ => exact ⟨_, _, rfl, rfl, rfl⟩
  | .colon, _ => exact ⟨_, _, rfl, rfl, rfl⟩
  | .null, _ => exact ⟨_, _, rfl, rfl, rfl⟩
  | .bool true, _ => exact ⟨_, _, rfl, rfl, rfl⟩
  | .bool false, _ => exact ⟨_, _, rfl, rfl, rfl⟩
  | .str (some s), _ =>
    refine ⟨_, _, rfl, rfl, ?_⟩
    simp only [next, Option.getD_some, List.append_assoc, List.cons_append, List.nil_append]
    rw [stringBody_text]
    simp [joinSurrogates_toNat]
  | .num ⟨true, w, f, e⟩, h =>
    have hc : chars (.num ⟨true, w, f, e⟩) = '-' :: (Numeral.digitChars (digits w) ++
        Numeral.fractionChars f ++ Numeral.exponentChars e) := rfl
    refine ⟨_, _, hc, rfl, ?_⟩
    simp only [next, List.append_assoc]
    exact numeral_chars ⟨true, w, f, e⟩ h
  | .num ⟨false, w, f, e⟩, h =>
    obtain ⟨d, ds, hd, -⟩ := digits_head w
    refine ⟨d.toChar,
      Numeral.digitChars ds ++ (Numeral.fractionChars f ++ Numeral.exponentChars e), ?_, ?_, ?_⟩
    · simp [chars, Numeral.chars, hd, Numeral.digitChars]
    · exact isBlank_digit d
    · rw [next_digit]
      have := numeral_chars ⟨false, w, f, e⟩ h
      simpa only [hd, Numeral.digitChars, List.map_cons, List.cons_append, List.append_assoc]
        using this

/-- Every token fits before those that follow it. -/
def AllFit : List Token → Prop
  | [] => True
  | t :: ts => t.Fits (ts.flatMap chars) ∧ AllFit ts

theorem scanWithin_chars (ts : List Token) (h : AllFit ts) (budget : Nat)
    (hb : ts.length ≤ budget) : scanWithin budget (ts.flatMap chars) = some ts := by
  induction ts generalizing budget with
  | nil => cases budget <;> rfl
  | cons t ts ih =>
    obtain ⟨c, cs, hc, hbl, hn⟩ := next_chars t h.1
    cases budget with
    | zero => simp at hb
    | succ budget =>
      rw [List.flatMap_cons, hc, List.cons_append, scanWithin, hbl]
      simp only [Bool.false_eq_true, if_false, hn]
      rw [ih h.2 _ (by simpa using hb)]
      rfl

theorem length_le_chars (ts : List Token) (h : AllFit ts) :
    ts.length ≤ (ts.flatMap chars).length := by
  induction ts with
  | nil => simp
  | cons t ts ih =>
    obtain ⟨c, cs, hc, -, -⟩ := next_chars t h.1
    have := ih h.2
    simp only [List.flatMap_cons, List.length_append, hc, List.length_cons] at this ⊢
    omega

/-- **Tokens are told apart in a text.** -/
theorem scan_chars (ts : List Token) (h : AllFit ts) : scan (ts.flatMap chars) = some ts :=
  scanWithin_chars ts h _ (length_le_chars ts h)

end Token

namespace Json

/-! ### Values -/

mutual

/-- **A value as it is read back from its text:** its numbers are those that their numerals stand
for, and what has no text is null. -/
def reread : Json → Json
  | .int i => ofNumeral (.ofInt i)
  | .float x => match numberToken x with
    | .num n => ofNumeral n
    | _ => .null
  | .arr items => .arr (rereadItems items)
  | .obj fields => .obj (rereadFields fields)
  | .unreadable => .null
  | j => j

/-- Items as they are read back. -/
def rereadItems : List Json → List Json
  | [] => []
  | j :: rest => reread j :: rereadItems rest

/-- Fields as they are read back, under the same keys. -/
def rereadFields : List (String × Json) → List (String × Json)
  | [] => []
  | (k, j) :: rest => (k, reread j) :: rereadFields rest

end

theorem numberToken_cases (x : Binary64) :
    numberToken x = .null ∨ ∃ n, numberToken x = .num n := by
  unfold numberToken
  split
  · exact .inl rfl
  · split
    · exact .inr ⟨_, rfl⟩
    · exact .inl rfl

theorem tokens_head (j : Json) : ∃ t ts, j.tokens = t :: ts ∧ t ≠ .closeArr := by
  cases j <;> simp [tokens]
  · rename_i x
    rcases numberToken_cases x with h | ⟨n, h⟩ <;> simp [h]

mutual

/-- **A value is read from its tokens**, whatever is open around it and follows it. -/
theorem readValue_tokens (j : Json) (stack : List Frame) (rest : List Token) :
    readValue stack (j.tokens ++ rest) = readAfter stack j.reread rest := by
  match j with
  | .null => simp [tokens, reread, readValue]
  | .bool b => simp [tokens, reread, readValue]
  | .int i => simp [tokens, reread, readValue]
  | .float x =>
    rcases numberToken_cases x with h | ⟨n, h⟩ <;> simp [tokens, reread, readValue, h]
  | .str s => simp [tokens, reread, readValue]
  | .unreadable => simp [tokens, reread, readValue]
  | .arr [] => simp [tokens, itemTokens, reread, rereadItems, readValue]
  | .arr (j :: items) =>
    simp only [tokens, itemTokens, if_true, List.nil_append, List.cons_append, List.append_assoc]
    obtain ⟨t, ts, ht, hne⟩ := tokens_head j
    have step : ∀ more, readValue stack (.openArr :: (j.tokens ++ more)) =
        readValue (.arr [] :: stack) (j.tokens ++ more) := by
      intro more
      rw [ht]
      cases t <;> first | rfl | exact absurd rfl hne
    rw [step, readValue_tokens j, readAfter_items items]
    rfl
  | .obj [] => simp [tokens, fieldTokens, reread, rereadFields, readValue]
  | .obj ((k, j) :: fields) =>
    simp only [tokens, fieldTokens, if_true, List.nil_append, List.cons_append, List.append_assoc,
      readValue]
    rw [readValue_tokens j, Option.getD_some, Option.isSome_some, readAfter_fields fields]
    rfl

/-- The rest of an array is read from its tokens. -/
theorem readAfter_items (items : List Json) {done : List Json} {stack : List Frame} {j : Json}
    {rest : List Token} :
    readAfter (.arr done :: stack) j (itemTokens false items ++ rest) =
      readAfter stack (.arr (done.reverse ++ j :: rereadItems items)) rest := by
  match items with
  | [] => simp [itemTokens, rereadItems, readAfter]
  | i :: items =>
    simp only [itemTokens, Bool.false_eq_true, if_false, List.cons_append, List.nil_append,
      List.append_assoc, readAfter]
    rw [readValue_tokens i, readAfter_items items]
    simp [rereadItems]

/-- The rest of an object is read from its tokens. -/
theorem readAfter_fields (fields : List (String × Json)) {done : List (String × Json)}
    {key : String} {stack : List Frame} {j : Json} {rest : List Token} :
    readAfter (.obj done key true :: stack) j (fieldTokens false fields ++ rest) =
      readAfter stack (.obj (done.reverse ++ (key, j) :: rereadFields fields)) rest := by
  match fields with
  | [] => simp [fieldTokens, rereadFields, readAfter, closeObject]
  | (k, i) :: fields =>
    simp only [fieldTokens, Bool.false_eq_true, if_false, List.cons_append, List.nil_append,
      List.append_assoc, readAfter]
    rw [readValue_tokens i, Option.getD_some, Option.isSome_some, Bool.and_self,
      readAfter_fields fields]
    simp [rereadFields]

end

/-- The tokens of a value end where something follows that is no part of a numeral. -/
theorem numeralEnds_of_head {rest : List Token}
    (h : ∀ t ∈ rest.head?, t = .comma ∨ t = .closeArr ∨ t = .closeObj) :
    Token.NumeralEnds (rest.flatMap Token.chars) := by
  cases rest with
  | nil => intro c hc; simp at hc
  | cons t rest =>
    intro c hc
    rcases h t rfl with rfl | rfl | rfl <;> simp [Token.chars] at hc <;> subst hc <;> decide

mutual

/-- The tokens of a value are told apart in a text. -/
theorem allFit_tokens (j : Json) {rest : List Token}
    (h : ∀ t ∈ rest.head?, t = .comma ∨ t = .closeArr ∨ t = .closeObj)
    (hr : Token.AllFit rest) : Token.AllFit (j.tokens ++ rest) := by
  match j with
  | .null => exact ⟨trivial, hr⟩
  | .bool b => exact ⟨trivial, hr⟩
  | .int i => exact ⟨numeralEnds_of_head h, hr⟩
  | .float x =>
    rcases numberToken_cases x with hx | ⟨n, hx⟩
    · simp only [tokens, hx, List.cons_append, List.nil_append]
      exact ⟨trivial, hr⟩
    · simp only [tokens, hx, List.cons_append, List.nil_append]
      exact ⟨numeralEnds_of_head h, hr⟩
  | .str s => exact ⟨trivial, hr⟩
  | .unreadable => exact ⟨trivial, hr⟩
  | .arr items => exact ⟨trivial, allFit_items true items hr⟩
  | .obj fields => exact ⟨trivial, allFit_fields true fields hr⟩

theorem allFit_items (first : Bool) (items : List Json) {rest : List Token}
    (hr : Token.AllFit rest) : Token.AllFit (itemTokens first items ++ rest) := by
  match items with
  | [] => exact ⟨trivial, hr⟩
  | j :: items =>
    have hhead : ∀ t ∈ (itemTokens false items ++ rest).head?,
        t = .comma ∨ t = .closeArr ∨ t = .closeObj := by
      cases items <;> simp [itemTokens]
    have := allFit_tokens j hhead (allFit_items false items hr)
    cases first
    · simp only [itemTokens, Bool.false_eq_true, if_false, List.append_assoc]
      exact ⟨trivial, this⟩
    · simpa only [itemTokens, if_true, List.nil_append, List.append_assoc] using this

theorem allFit_fields (first : Bool) (fields : List (String × Json)) {rest : List Token}
    (hr : Token.AllFit rest) : Token.AllFit (fieldTokens first fields ++ rest) := by
  match fields with
  | [] => exact ⟨trivial, hr⟩
  | (k, j) :: fields =>
    have hhead : ∀ t ∈ (fieldTokens false fields ++ rest).head?,
        t = .comma ∨ t = .closeArr ∨ t = .closeObj := by
      cases fields <;> simp [fieldTokens]
    have := allFit_tokens j hhead (allFit_fields false fields hr)
    cases first
    · simp only [fieldTokens, Bool.false_eq_true, if_false, List.append_assoc, List.cons_append]
      exact ⟨trivial, trivial, trivial, this⟩
    · simp only [fieldTokens, if_true, List.nil_append, List.append_assoc, List.cons_append]
      exact ⟨trivial, trivial, this⟩

end

/-- **What is read from the text of a value.** -/
theorem ofText?_text_eq_reread (j : Json) : ofText? j.text = some j.reread := by
  unfold ofText? text chars
  rw [String.toList_ofList]
  have hempty : ∀ t ∈ ([] : List Token).head?, t = .comma ∨ t = .closeArr ∨ t = .closeObj := by
    simp
  have hf := allFit_tokens j hempty trivial
  rw [List.append_nil] at hf
  rw [Token.scan_chars _ hf]
  have := readValue_tokens j [] []
  rw [List.append_nil] at this
  simpa [ofTokens?, readAfter] using this

/-! ### Printable values -/

/-- The numeral that is written for a number is read as that number. -/
def ReadsBack (x : Binary64) : Prop := ∃ n, numberToken x = .num n ∧ ofNumeral n = .float x

mutual

/-- **A value whose text reads back.** -/
def Printable : Json → Prop
  | .int i => -0x8000000000000000 ≤ i ∧ i < 0x10000000000000000
  | .float x => ReadsBack x
  | .arr items => PrintableItems items
  | .obj fields => PrintableFields fields
  | .unreadable => False
  | _ => True

/-- Items whose texts read back. -/
def PrintableItems : List Json → Prop
  | [] => True
  | j :: rest => Printable j ∧ PrintableItems rest

/-- Fields whose texts read back. Any key does. -/
def PrintableFields : List (String × Json) → Prop
  | [] => True
  | (_, j) :: rest => Printable j ∧ PrintableFields rest

end

/-- The numeral of a word is read as that word. -/
theorem ofNumeral_ofInt {i : Int} (h : -0x8000000000000000 ≤ i ∧ i < 0x10000000000000000) :
    ofNumeral (.ofInt i) = .int i := by
  unfold ofNumeral
  rw [Numeral.toWord?_ofInt h]

mutual

/-- A printable value is read back as it was. -/
theorem reread_eq_self (j : Json) (h : Printable j) : j.reread = j := by
  match j, h with
  | .null, _ => rfl
  | .bool _, _ => rfl
  | .int _, h => exact ofNumeral_ofInt h
  | .float x, h =>
    obtain ⟨n, hn, hx⟩ := h
    simp only [reread, hn, hx]
  | .str _, _ => rfl
  | .arr items, h => rw [reread, rereadItems_eq_self items h]
  | .obj fields, h => rw [reread, rereadFields_eq_self fields h]

theorem rereadItems_eq_self (items : List Json) (h : PrintableItems items) :
    rereadItems items = items := by
  match items, h with
  | [], _ => rfl
  | j :: rest, h => rw [rereadItems, reread_eq_self j h.1, rereadItems_eq_self rest h.2]

theorem rereadFields_eq_self (fields : List (String × Json)) (h : PrintableFields fields) :
    rereadFields fields = fields := by
  match fields, h with
  | [], _ => rfl
  | (k, j) :: rest, h => rw [rereadFields, reread_eq_self j h.1, rereadFields_eq_self rest h.2]

end

/-- **The text of a printable value reads back.** -/
theorem ofText?_text (j : Json) (h : Printable j) : ofText? j.text = some j := by
  rw [ofText?_text_eq_reread, reread_eq_self j h]

/-! ### Documents -/

mutual

/-- Nothing is cut from a value that is not nested too deep. -/
theorem trimDepth_eq_self (j : Json) {limit : Nat} (h : j.nesting ≤ limit) :
    j.trimDepth limit = j := by
  match j, h with
  | .null, _ => rfl
  | .bool _, _ => rfl
  | .int _, _ => rfl
  | .float _, _ => rfl
  | .str _, _ => rfl
  | .unreadable, _ => rfl
  | .arr items, h =>
    cases limit with
    | zero => simp [nesting] at h
    | succ limit =>
      simp only [trimDepth]
      rw [trimDepthItems_eq_self items (by simpa [nesting] using h)]
  | .obj fields, h =>
    cases limit with
    | zero => simp [nesting] at h
    | succ limit =>
      simp only [trimDepth]
      rw [trimDepthFields_eq_self fields (by simpa [nesting] using h)]

theorem trimDepthItems_eq_self (items : List Json) {limit : Nat} (h : nestingItems items ≤ limit) :
    trimDepthItems limit items = items := by
  match items, h with
  | [], _ => rfl
  | j :: rest, h =>
    simp only [nestingItems] at h
    rw [trimDepthItems, trimDepth_eq_self j (by omega), trimDepthItems_eq_self rest (by omega)]

theorem trimDepthFields_eq_self (fields : List (String × Json)) {limit : Nat}
    (h : nestingFields fields ≤ limit) : trimDepthFields limit fields = fields := by
  match fields, h with
  | [], _ => rfl
  | (k, j) :: rest, h =>
    simp only [nestingFields] at h
    rw [trimDepthFields, trimDepth_eq_self j (by omega), trimDepthFields_eq_self rest (by omega)]

end

/-- **The text of a document reads back.** -/
theorem ofDocument?_text (j : Json) (h : Printable j) (hn : j.nesting ≤ nestingLimit) :
    ofDocument? j.text = some j := by
  rw [ofDocument?, ofText?_text j h, Option.map_some, document, trimDepth_eq_self j hn]

end Json

end Questline
