import LogSequencing.Json.Reader
import LogSequencing.Proofs.Text.Decimal
import Mathlib.Tactic.FinCases

/-!
# JSON values read back

A plain value is one whose numbers are written in decimal digits and whose strings need no escape.
Its print is cut into the tokens that spell it (`cuts_print`), and the reader builds the value from
them (`run?_tokens`), so that reading undoes printing (`ofOctets?_print`).
-/

set_option autoImplicit false
set_option relaxedAutoImplicit false

namespace LogSequencing.Json

/-! ### Numbers and strings -/

/-- Octets that do not go on with a number that stands in front of them. -/
def EndsNumber : Octets → Prop
  | [] => True
  | octet :: _ => isDigit octet = false ∧ octet ≠ 0x2e ∧ octet ≠ 0x65 ∧ octet ≠ 0x45

theorem EndsNumber.append {first second : Octets} (hfirst : EndsNumber first)
    (hsecond : EndsNumber second) : EndsNumber (first ++ second) := by
  cases first with
  | nil => exact hsecond
  | cons octet rest => exact hfirst

theorem endsNumber_punctuation {octet : UInt8} (h : octet ∈ [0x2c, 0x5d, 0x7d]) (rest : Octets) :
    EndsNumber (octet :: rest) := by
  fin_cases h <;> exact ⟨rfl, by decide, by decide, by decide⟩

theorem isDigit_of_mem_ofAscii_digits {n : Nat} {octet : UInt8}
    (h : octet ∈ Octets.ofAscii (Decimal.digits n)) : isDigit octet = true := by
  obtain ⟨c, hc, rfl⟩ := List.mem_map.mp h
  obtain ⟨-, hlow, hhigh⟩ := Octets.digit_octet (Decimal.isDigit_of_mem_digits hc)
  rw [isDigit, Bool.and_eq_true]
  exact ⟨decide_eq_true hlow, decide_eq_true hhigh⟩

theorem takeWhile_isDigit {digits rest : Octets} (hdigits : ∀ octet ∈ digits, isDigit octet = true)
    (hrest : EndsNumber rest) :
    (digits ++ rest).takeWhile isDigit = digits ∧ (digits ++ rest).dropWhile isDigit = rest := by
  induction digits with
  | nil =>
    cases rest with
    | nil => exact ⟨rfl, rfl⟩
    | cons octet rest => simp [hrest.1]
  | cons octet digits ih =>
    have hoctet := hdigits octet List.mem_cons_self
    have hdrop := ih fun other hother ↦ hdigits other (List.mem_cons_of_mem octet hother)
    simp [hoctet, hdrop.1, hdrop.2]

theorem wholeAndRest?_digits (n : Nat) {rest : Octets} (hrest : EndsNumber rest) :
    wholeAndRest? (Octets.ofAscii (Decimal.digits n) ++ rest) =
      some (Octets.ofAscii (Decimal.digits n), rest) := by
  have hsplit := takeWhile_isDigit (fun _ ↦ isDigit_of_mem_ofAscii_digits (n := n)) hrest
  rcases Decimal.digits_eq_zero_or n with hzero | ⟨c, digits, hdigits, hc⟩
  · rw [hzero]
    rfl
  · have hoctet : c.toUInt8 ≠ 0x30 := by
      intro hoctet
      have hdigit := Decimal.isDigit_of_mem_digits (n := n) (c := c)
        (by rw [hdigits]; exact List.mem_cons_self)
      have hback := (Octets.digit_octet hdigit).1
      rw [hoctet] at hback
      exact hc hback.symm
    rw [hdigits] at hsplit ⊢
    have hwhole : wholeAndRest? (Octets.ofAscii (c :: digits) ++ rest) =
        digitsAndRest? (Octets.ofAscii (c :: digits) ++ rest) := by
      rw [wholeAndRest?.eq_def]
      split
      · rename_i heq
        exact absurd (List.cons.inj heq).1 hoctet
      · rfl
    rw [hwhole, digitsAndRest?, hsplit.1, hsplit.2]
    rfl

theorem fractionAndRest?_of_endsNumber {rest : Octets} (hrest : EndsNumber rest) :
    fractionAndRest? rest = some ([], rest) := by
  rw [fractionAndRest?.eq_def]
  split
  · exact absurd rfl hrest.2.1
  · rfl

theorem exponentAndRest?_of_endsNumber {rest : Octets} (hrest : EndsNumber rest) :
    exponentAndRest? rest = some ([], rest) := by
  cases rest with
  | nil => rfl
  | cons octet rest =>
    have hletter : ¬ ((octet = 0x65 || octet = 0x45) = true) := by
      simp [hrest.2.2.1, hrest.2.2.2]
    rw [exponentAndRest?.eq_def]
    exact if_neg hletter

theorem unsignedAndRest?_digits (n : Nat) {rest : Octets} (hrest : EndsNumber rest) :
    unsignedAndRest? (Octets.ofAscii (Decimal.digits n) ++ rest) =
      some (Octets.ofAscii (Decimal.digits n), rest) := by
  simp [unsignedAndRest?, wholeAndRest?_digits n hrest, fractionAndRest?_of_endsNumber hrest,
    exponentAndRest?_of_endsNumber hrest]

/-- An octet that begins a number begins no other token. -/
theorem next?_digit {first : UInt8} (hfirst : isDigit first = true) (rest : Octets) :
    isSpace first = false ∧ Token.next? first rest =
      (unsignedAndRest? (first :: rest)).map fun (spelling, rest) ↦
        (.number spelling.toChars, rest) := by
  have hcases : first.toNat ∈ [48, 49, 50, 51, 52, 53, 54, 55, 56, 57] := by
    rw [isDigit, Bool.and_eq_true, decide_eq_true_eq, decide_eq_true_eq, UInt8.le_iff_toNat_le,
      UInt8.le_iff_toNat_le] at hfirst
    have hlow : 48 ≤ first.toNat := hfirst.1
    have hhigh : first.toNat ≤ 57 := hfirst.2
    simp only [List.mem_cons, List.not_mem_nil, or_false]
    omega
  rw [← UInt8.ofNat_toNat (x := first)]
  generalize first.toNat = code at hcases
  fin_cases hcases <;> exact ⟨rfl, rfl⟩

/-- Octets that stand for themselves in a string. -/
def IsPlain (octet : UInt8) : Prop := 0x20 ≤ octet ∧ octet ≠ 0x22 ∧ octet ≠ 0x5c

theorem stringAndRest?_of_isPlain {spelling : Octets} (h : ∀ octet ∈ spelling, IsPlain octet)
    (rest : Octets) : stringAndRest? (spelling ++ 0x22 :: rest) = some (spelling, rest) := by
  induction spelling with
  | nil => rfl
  | cons octet spelling ih =>
    obtain ⟨hcontrol, hquote, hbackslash⟩ := h octet List.mem_cons_self
    have hrest := ih fun other hother ↦ h other (List.mem_cons_of_mem octet hother)
    rw [List.cons_append, stringAndRest?.eq_def]
    split
    · contradiction
    · rename_i heq
      exact absurd (List.cons.inj heq).1 hquote
    · rename_i heq
      exact absurd (List.cons.inj heq).1 hbackslash
    · rename_i heq
      exact absurd (List.cons.inj heq).1 hbackslash
    · rename_i heq
      obtain ⟨rfl, rfl⟩ := List.cons.inj heq
      rw [if_neg (by simp [hbackslash, UInt8.not_lt.mpr hcontrol]), hrest]
      rfl

/-! ### Plain values and their tokens -/

namespace Value

mutual

/-- Numbers are written in decimal digits, and strings without escapes. -/
def IsPlain : Value → Prop
  | null | bool _ => True
  | number spelling => ∃ n, spelling = Decimal.digits n
  | string spelling => ∀ octet ∈ spelling, Json.IsPlain octet
  | array items => ArePlain items
  | object members => MembersArePlain members

def ArePlain : List Value → Prop
  | [] => True
  | item :: rest => item.IsPlain ∧ ArePlain rest

def MembersArePlain : List (Octets × Value) → Prop
  | [] => True
  | (key, value) :: rest =>
    (∀ octet ∈ key, Json.IsPlain octet) ∧ value.IsPlain ∧ MembersArePlain rest

end

mutual

/-- The tokens that spell a value. -/
def tokens : Value → List Token
  | null => [.null]
  | bool value => [.bool value]
  | number spelling => [.number spelling]
  | string spelling => [.string spelling]
  | array items => .openBracket :: (itemTokens items ++ [.closeBracket])
  | object members => .openBrace :: (memberTokens members ++ [.closeBrace])

def itemTokens : List Value → List Token
  | [] => []
  | [item] => item.tokens
  | item :: rest => item.tokens ++ .comma :: itemTokens rest

def memberTokens : List (Octets × Value) → List Token
  | [] => []
  | [(key, value)] => .string key :: .colon :: value.tokens
  | (key, value) :: rest =>
    .string key :: .colon :: (value.tokens ++ .comma :: memberTokens rest)

end

end Value

/-! ### Cutting a print into tokens -/

/-- Octets that are cut into the given tokens, whatever follows them. -/
def Cuts (octets : Octets) (tokens : List Token) : Prop :=
  tokens.length ≤ octets.length ∧ ∀ (fuel : Nat) (rest : Octets), EndsNumber rest →
    Token.ofOctetsWithin? (tokens.length + fuel) (octets ++ rest) =
      (Token.ofOctetsWithin? fuel rest).map (tokens ++ ·)

theorem cuts_nil : Cuts [] [] := ⟨le_rfl, fun fuel rest _ ↦ by simp⟩

/-- Reads one token off the front. -/
theorem cuts_step {octet : UInt8} (spelling : Octets) {rest : Octets} {token : Token}
    {tokens : List Token}
    (hspace : isSpace octet = false)
    (hnext : ∀ after, EndsNumber after →
      Token.next? octet (spelling ++ (rest ++ after)) = some (token, rest ++ after))
    (hrest : Cuts rest tokens) : Cuts (octet :: (spelling ++ rest)) (token :: tokens) := by
  refine ⟨?_, fun fuel after hafter ↦ ?_⟩
  · have hlength := hrest.1
    simp only [List.length_cons, List.length_append]
    omega
  · have hfuel : (token :: tokens).length + fuel = (tokens.length + fuel) + 1 := by
      simp only [List.length_cons]
      omega
    rw [hfuel, List.cons_append, List.append_assoc, Token.ofOctetsWithin?]
    rw [if_neg (by simp [hspace]), hnext after hafter]
    simp only [Option.bind_eq_bind, Option.bind_some, hrest.2 fuel after hafter]
    cases Token.ofOctetsWithin? fuel after <;> rfl

/-- A token of one octet. -/
theorem Cuts.cons {octet : UInt8} {rest : Octets} {token : Token} {tokens : List Token}
    (hrest : Cuts rest tokens) (hspace : isSpace octet = false)
    (hnext : ∀ after, Token.next? octet after = some (token, after)) :
    Cuts (octet :: rest) (token :: tokens) :=
  cuts_step [] hspace (fun _ _ ↦ hnext _) hrest

theorem Cuts.append {first second : Octets} {tokens others : List Token} (hfirst : Cuts first tokens)
    (hsecond : Cuts second others) (hends : EndsNumber second) :
    Cuts (first ++ second) (tokens ++ others) := by
  refine ⟨?_, fun fuel rest hrest ↦ ?_⟩
  · have hlengths := Nat.add_le_add hfirst.1 hsecond.1
    simpa only [List.length_append] using hlengths
  · rw [List.length_append, Nat.add_assoc, List.append_assoc,
      hfirst.2 _ _ (hends.append hrest), hsecond.2 fuel rest hrest, Option.map_map]
    congr 1
    funext more
    exact (List.append_assoc tokens others more).symm

theorem cuts_quoted {spelling rest : Octets} {tokens : List Token}
    (hplain : ∀ octet ∈ spelling, IsPlain octet) (hrest : Cuts rest tokens) :
    Cuts (Value.quoted spelling ++ rest) (.string spelling :: tokens) := by
  have hnext : ∀ after, Token.next? 0x22 (spelling ++ [0x22] ++ (rest ++ after)) =
      some (.string spelling, rest ++ after) := by
    intro after
    have hscan : Token.next? 0x22 (spelling ++ [0x22] ++ (rest ++ after)) =
        (stringAndRest? (spelling ++ 0x22 :: (rest ++ after))).map fun (spelling, rest) ↦
          (.string spelling, rest) := by
      rw [List.append_assoc]
      rfl
    rw [hscan, stringAndRest?_of_isPlain hplain]
    rfl
  exact cuts_step _ (by decide) (fun after _ ↦ hnext after) hrest

theorem cuts_number (n : Nat) :
    Cuts (Octets.ofAscii (Decimal.digits n)) [.number (Decimal.digits n)] := by
  have hchars := Octets.toChars_ofAscii fun c ↦ Decimal.isDigit_of_mem_digits (n := n) (c := c)
  have hdigit : ∀ octet ∈ Octets.ofAscii (Decimal.digits n), isDigit octet = true :=
    fun _ ↦ isDigit_of_mem_ofAscii_digits
  have hscan := fun after (hafter : EndsNumber after) ↦ unsignedAndRest?_digits n hafter
  cases hoctets : Octets.ofAscii (Decimal.digits n) with
  | nil => exact absurd (List.map_eq_nil_iff.mp hoctets) (Decimal.digits_ne_nil n)
  | cons octet spelling =>
    rw [hoctets] at hchars hdigit hscan
    have hoctet := next?_digit (hdigit octet List.mem_cons_self)
    rw [← List.append_nil spelling]
    refine cuts_step _ (hoctet []).1 (fun after hafter ↦ ?_) cuts_nil
    rw [List.nil_append, (hoctet _).2, ← List.cons_append, hscan after hafter, Option.map_some]
    exact congrArg (fun spelling ↦ some (Token.number spelling, after)) hchars

/-- A token that is a fixed word. -/
theorem cuts_word {octet : UInt8} (word : Octets) {token : Token} (hspace : isSpace octet = false)
    (hnext : ∀ after, Token.next? octet after =
      (dropWord? word after).map fun rest ↦ (token, rest)) :
    Cuts (octet :: word) [token] := by
  rw [← List.append_nil word]
  refine cuts_step word hspace (fun after _ ↦ ?_) cuts_nil
  rw [hnext]
  simp [dropWord?]

mutual

theorem cuts_print : ∀ value : Value, value.IsPlain → Cuts value.print value.tokens
  | .null, _ => cuts_word (Octets.ofText "ull") (by decide) fun _ ↦ rfl
  | .bool true, _ => cuts_word (Octets.ofText "rue") (by decide) fun _ ↦ rfl
  | .bool false, _ => cuts_word (Octets.ofText "alse") (by decide) fun _ ↦ rfl
  | .number spelling, hplain => by
    obtain ⟨n, rfl⟩ := hplain
    exact cuts_number n
  | .string spelling, hplain => by
    rw [Value.print, ← List.append_nil (Value.quoted spelling)]
    exact cuts_quoted hplain cuts_nil
  | .array items, hplain => by
    rw [Value.print, Value.tokens]
    have hclose : Cuts [0x5d] [.closeBracket] := cuts_nil.cons (by decide) fun _ ↦ rfl
    have hitems := (cuts_printItems items hplain).append hclose (endsNumber_punctuation (by decide) [])
    exact hitems.cons (by decide) fun _ ↦ rfl
  | .object members, hplain => by
    rw [Value.print, Value.tokens]
    have hclose : Cuts [0x7d] [.closeBrace] := cuts_nil.cons (by decide) fun _ ↦ rfl
    have hmembers := (cuts_printMembers members hplain).append hclose (endsNumber_punctuation (by decide) [])
    exact hmembers.cons (by decide) fun _ ↦ rfl

theorem cuts_printItems : ∀ items : List Value, Value.ArePlain items →
    Cuts (Value.printItems items) (Value.itemTokens items)
  | [], _ => cuts_nil
  | [item], hplain => cuts_print item hplain.1
  | item :: next :: rest, hplain => by
    have hrest : Cuts (0x2c :: Value.printItems (next :: rest)) (.comma :: _) :=
      (cuts_printItems (next :: rest) hplain.2).cons (by decide) fun _ ↦ rfl
    exact (cuts_print item hplain.1).append hrest (endsNumber_punctuation (by decide) _)

theorem cuts_printMembers : ∀ members : List (Octets × Value), Value.MembersArePlain members →
    Cuts (Value.printMembers members) (Value.memberTokens members)
  | [], _ => cuts_nil
  | [(key, value)], hplain => by
    have hvalue : Cuts (0x3a :: value.print) (.colon :: _) :=
      (cuts_print value hplain.2.1).cons (by decide) fun _ ↦ rfl
    exact cuts_quoted hplain.1 hvalue
  | (key, value) :: next :: rest, hplain => by
    have hrest : Cuts (0x2c :: Value.printMembers (next :: rest)) (.comma :: _) :=
      (cuts_printMembers (next :: rest) hplain.2.2).cons (by decide) fun _ ↦ rfl
    have hvalue : Cuts (0x3a :: (value.print ++ _)) (.colon :: _) :=
      ((cuts_print value hplain.2.1).append hrest (endsNumber_punctuation (by decide) _)).cons
        (by decide) fun _ ↦ rfl
    change Cuts (Value.quoted key ++ 0x3a :: value.print ++
      0x2c :: Value.printMembers (next :: rest)) _
    rw [List.append_assoc]
    exact cuts_quoted hplain.1 hvalue

end

/-! ### Building the value -/

namespace Reader

/-- No value begins with a closing bracket. -/
theorem run?_beforeFirstItem (value : Value) (frames : List Frame) (rest : List Token) :
    run? .beforeFirstItem (.array [] :: frames) (value.tokens ++ rest) =
      run? .beforeValue (.array [] :: frames) (value.tokens ++ rest) := by
  cases value <;> rfl

mutual

theorem run?_tokens : ∀ (value : Value) (frames : List Frame) (rest : List Token),
    run? .beforeValue frames (value.tokens ++ rest) = run? (.afterValue value) frames rest
  | .null, _, _ => rfl
  | .bool _, _, _ => rfl
  | .number _, _, _ => rfl
  | .string _, _, _ => rfl
  | .array [], _, _ => rfl
  | .array (item :: items), frames, rest => by
    have hitems := run?_itemTokens (item :: items) [] frames rest (List.cons_ne_nil _ _)
    rw [Value.tokens, List.cons_append, List.append_assoc]
    refine Eq.trans ?_ hitems
    cases items with
    | nil => exact run?_beforeFirstItem item frames _
    | cons next others =>
      change run? .beforeFirstItem _ (item.tokens ++ .comma :: Value.itemTokens (next :: others) ++
        ([.closeBracket] ++ rest)) = run? .beforeValue _ (item.tokens ++ _ ++ _)
      rw [List.append_assoc]
      exact run?_beforeFirstItem item frames _
  | .object [], _, _ => rfl
  | .object ((key, value) :: members), frames, rest => by
    have hmembers := run?_memberTokens ((key, value) :: members) [] frames rest
      (List.cons_ne_nil _ _)
    rw [Value.tokens, List.cons_append, List.append_assoc]
    refine Eq.trans ?_ hmembers
    cases members <;> rfl

/-- The items of an array, of which some have been read. -/
theorem run?_itemTokens : ∀ (items read : List Value) (frames : List Frame) (rest : List Token),
    items ≠ [] → run? .beforeValue (.array read :: frames)
        (Value.itemTokens items ++ ([.closeBracket] ++ rest)) =
      run? (.afterValue (.array (read.reverse ++ items))) frames rest
  | [], _, _, _, h => absurd rfl h
  | [item], read, frames, rest, _ => by
    rw [Value.itemTokens, run?_tokens item]
    simp [run?, step?]
  | item :: next :: others, read, frames, rest, _ => by
    have hothers := run?_itemTokens (next :: others) (item :: read) frames rest
      (List.cons_ne_nil _ _)
    rw [List.reverse_cons, List.append_assoc] at hothers
    change run? .beforeValue _ (item.tokens ++ .comma :: Value.itemTokens (next :: others) ++ _) = _
    rw [List.append_assoc, run?_tokens item]
    exact hothers

/-- The members of an object, of which some have been read. -/
theorem run?_memberTokens : ∀ (members read : List (Octets × Value)) (frames : List Frame)
    (rest : List Token), members ≠ [] →
    run? (.beforeKey read) frames (Value.memberTokens members ++ ([.closeBrace] ++ rest)) =
      run? (.afterValue (.object (read.reverse ++ members))) frames rest
  | [], _, _, _, h => absurd rfl h
  | [(key, value)], read, frames, rest, _ => by
    change run? .beforeValue (.object read key :: frames) (value.tokens ++ _) = _
    rw [run?_tokens value]
    simp [run?, step?]
  | (key, value) :: next :: others, read, frames, rest, _ => by
    have hothers := run?_memberTokens (next :: others) ((key, value) :: read) frames rest
      (List.cons_ne_nil _ _)
    rw [List.reverse_cons, List.append_assoc] at hothers
    change run? .beforeValue (.object read key :: frames)
      (value.tokens ++ .comma :: Value.memberTokens (next :: others) ++ _) = _
    rw [List.append_assoc, run?_tokens value]
    exact hothers

end

end Reader

/-- Reading undoes printing. -/
theorem Value.ofOctets?_print {value : Value} (hplain : value.IsPlain) :
    ofOctets? value.print = some value := by
  obtain ⟨hlength, hcuts⟩ := cuts_print value hplain
  have htokens : Token.ofOctets? value.print = some value.tokens := by
    have hscan := hcuts (value.print.length - value.tokens.length) [] trivial
    rw [Nat.add_sub_cancel' hlength, List.append_nil] at hscan
    rw [Token.ofOctets?, hscan]
    simp [Token.ofOctetsWithin?]
  have hread := Reader.run?_tokens value [] []
  rw [List.append_nil] at hread
  simp only [ofOctets?, htokens, Option.bind_eq_bind, Option.bind_some, hread]
  rfl

end LogSequencing.Json
