import Mathlib.Data.List.TakeWhile
import MowerRover.Params.ParamFile

/-!
# The layout of `.parm` texts

A line of a `.parm` text writes a pair, with a comma or white space between
name and value, or nothing. Names may be in any case, blanks may stand around
both parts, and a comment may end the line. Whatever the layout, the parser
gives back the pairs.
-/

namespace MowerRover.Params

open Numeric

/-- The ASCII characters that a text read by `float()` can have between its blanks. -/
def asciiNumeral (c : Char) : Bool := c.isAlphanum || c = '_' || c = '.' || c = '+' || c = '-'

/-- The digits may be those of any script. -/
def numeralChar (c : Char) : Bool := asciiNumeral (asciiDigit c)

theorem spanDigits_chars (cs : List Char) : cs = (spanDigits cs).1 ++ (spanDigits cs).2 ∧
    ∀ c ∈ (spanDigits cs).1, c.isDigit = true := by
  rw [spanDigits, List.span_eq_takeWhile_dropWhile]
  refine ⟨(List.takeWhile_append_dropWhile).symm, fun c hc => ?_⟩
  exact List.mem_takeWhile_imp hc

theorem asciiNumeral_of_isDigit {c : Char} (h : c.isDigit = true) : asciiNumeral c = true := by
  simp [asciiNumeral, Char.isAlphanum, h]

theorem spanSign_chars {cs : List Char} (h : ∀ c ∈ (spanSign cs).2, asciiNumeral c = true) :
    ∀ c ∈ cs, asciiNumeral c = true := by
  match cs, h with
  | [], _ => simp
  | c :: cs, h =>
    by_cases hminus : c = '-'
    · subst hminus
      exact List.forall_mem_cons.mpr ⟨by decide, h⟩
    · by_cases hplus : c = '+'
      · subst hplus
        exact List.forall_mem_cons.mpr ⟨by decide, h⟩
      · have hsame : spanSign (c :: cs) = (false, c :: cs) := by
          unfold spanSign
          split <;> simp_all
        rwa [hsame] at h

theorem exponentOf_chars {cs : List Char} {e : ℤ} (h : exponentOf cs = some e) :
    ∀ c ∈ cs, asciiNumeral c = true := by
  cases cs with
  | nil => simp
  | cons c cs =>
    simp only [exponentOf] at h
    split_ifs at h with hc hrest
    have hletter : asciiNumeral c = true := by
      rcases hc with rfl | rfl <;> decide
    rw [List.forall_mem_cons]
    refine ⟨hletter, spanSign_chars fun d hd => ?_⟩
    obtain ⟨heq, hdigits⟩ := spanDigits_chars (spanSign cs).2
    rw [hrest.2, List.append_nil] at heq
    rw [heq] at hd
    exact asciiNumeral_of_isDigit (hdigits d hd)

theorem decimalOf_chars {cs : List Char} {q : ℚ} (h : decimalOf cs = some q) :
    ∀ c ∈ cs, asciiNumeral c = true := by
  obtain ⟨hcs, hwhole⟩ := spanDigits_chars cs
  rw [hcs, List.forall_mem_append]
  refine ⟨fun c hc => asciiNumeral_of_isDigit (hwhole c hc), ?_⟩
  simp only [decimalOf] at h
  split_ifs at h with hempty
  obtain ⟨e, he, -⟩ := Option.map_eq_some_iff.mp h
  split at he
  · rename_i rest hrest
    obtain ⟨hfraction, hdigits⟩ := spanDigits_chars rest
    rw [hrest, List.forall_mem_cons, hfraction, List.forall_mem_append]
    exact ⟨by decide, fun c hc => asciiNumeral_of_isDigit (hdigits c hc), exponentOf_chars he⟩
  · exact exponentOf_chars he

theorem toLower_chars {cs : List Char} {w : String}
    (h : String.ofList (cs.map Char.toLower) = w) (hw : ∀ c ∈ w.toList, c.isLower = true) :
    ∀ c ∈ cs, asciiNumeral c = true := by
  intro c hc
  have hlower : c.toLower.isLower = true := by
    apply hw
    rw [← h, String.toList_ofList]
    exact List.mem_map_of_mem hc
  have halpha : c.isAlpha = true := by
    apply Bool.or_eq_true_iff.mpr
    by_cases hupper : c.isUpper = true
    · exact .inl hupper
    · have hsame : c.toLower = c := dif_neg fun hrange => hupper (decide_eq_true hrange)
      exact .inr (hsame ▸ hlower)
  simp [asciiNumeral, Char.isAlphanum, halpha]

/-- Python reads no number from a text with any other character in it. -/
theorem floatOfString_chars {text : List Char} {f : PyFloat}
    (h : floatOfString (String.ofList text) = some f) :
    ∀ c ∈ numeralStrip text, numeralChar c = true := by
  obtain ⟨cs, hcs, h⟩ := Option.bind_eq_some_iff.mp h
  have hkept : ∀ c ∈ (spanSign cs).2, asciiNumeral c = true := by
    dsimp only at h
    split_ifs at h with hinf hnan
    · rcases hinf with hinf | hinf
      · exact toLower_chars hinf (List.all_eq_true.mp rfl)
      · exact toLower_chars hinf (List.all_eq_true.mp rfl)
    · exact toLower_chars hnan (List.all_eq_true.mp rfl)
    all_goals
      obtain ⟨q, hq, -⟩ := Option.map_eq_some_iff.mp h
      exact decimalOf_chars hq
  simp only [numeral, String.toList_ofList] at hcs
  split_ifs at hcs with hok
  obtain rfl := Option.some.inj hcs
  intro c hc
  by_cases hunderscore : asciiDigit c = '_'
  · rw [numeralChar, hunderscore]
    decide
  · exact spanSign_chars hkept _
      (List.mem_filter.mpr ⟨List.mem_map_of_mem hc, by simpa using hunderscore⟩)

/-- Nothing to strip at either end. -/
def Trimmed (cs : List Char) : Prop :=
  (∀ c, cs.head? = some c → pyIsSpace c = false) ∧ ∀ c, cs.getLast? = some c → pyIsSpace c = false

def Blank (cs : List Char) : Prop := ∀ c ∈ cs, pyIsSpace c = true

theorem dropWhile_blank {pad cs : List Char} (hpad : Blank pad)
    (hcs : ∀ c, cs.head? = some c → pyIsSpace c = false) :
    (pad ++ cs).dropWhile pyIsSpace = cs := by
  rw [List.dropWhile_append_of_pos hpad]
  cases cs with
  | nil => rfl
  | cons c cs => simp [hcs c rfl]

theorem pyStrip_pad {left cs right : List Char} (hl : Blank left) (hr : Blank right)
    (hcs : Trimmed cs) : pyStrip (left ++ cs ++ right) = cs := by
  have hhead : ∀ c, (cs ++ right).head? = some c → cs ≠ [] → pyIsSpace c = false := by
    intro c hc hne
    obtain ⟨d, ds, rfl⟩ := List.exists_cons_of_ne_nil hne
    exact hcs.1 c hc
  by_cases hne : cs = []
  · subst hne
    have hblank : Blank (left ++ right) := List.forall_mem_append.mpr ⟨hl, hr⟩
    rw [List.append_nil, pyStrip, List.dropWhile_eq_nil_iff.mpr hblank]
    rfl
  · rw [List.append_assoc, pyStrip, dropWhile_blank hl fun c hc => hhead c hc hne,
      List.reverse_append, dropWhile_blank, List.reverse_reverse]
    · exact fun c hc => hr c (List.mem_reverse.mp hc)
    · intro c hc
      rw [List.head?_reverse] at hc
      exact hcs.2 c hc

theorem trimmed_of_forall {cs : List Char} (h : ∀ c ∈ cs, pyIsSpace c = false) : Trimmed cs :=
  ⟨fun c hc => h c (List.mem_of_mem_head? hc), fun c hc => h c (List.mem_of_getLast? hc)⟩

theorem pyStrip_of_trimmed {cs : List Char} (h : Trimmed cs) : pyStrip cs = cs := by
  have hpad : pyStrip ([] ++ cs ++ []) = cs := pyStrip_pad (by simp [Blank]) (by simp [Blank]) h
  simpa using hpad

theorem dropWhile_numeralSpace {cs : List Char}
    (h : ∀ c, cs.head? = some c → pyIsSpace c = false) : cs.dropWhile numeralSpace = cs := by
  cases cs with
  | nil => rfl
  | cons c cs => simp [numeralSpace, h c rfl]

theorem numeralStrip_of_trimmed {cs : List Char} (h : Trimmed cs) : numeralStrip cs = cs := by
  rw [numeralStrip, dropWhile_numeralSpace h.1, dropWhile_numeralSpace, List.reverse_reverse]
  intro c hc
  rw [List.head?_reverse] at hc
  exact h.2 c hc

/-- A comment, or nothing. -/
inductive Trailing : List Char → Prop
  | none : Trailing []
  | hash (cs : List Char) : Trailing ('#' :: cs)
  | slashes (cs : List Char) : Trailing ('/' :: '/' :: cs)

/-- ASCII letters, digits and underscores. -/
def nameChar (c : Char) : Bool := c.isAlphanum || c = '_'

def IsName (name : List Char) : Prop := name ≠ [] ∧ ∀ c ∈ name, nameChar c = true

/-- The name under which a parameter set keeps a pair. -/
def upperName (name : String) : String := String.ofList (name.toList.map Char.toUpper)

/-- What separates the value from the name: a comma between blanks, or blanks. -/
inductive Separator : List Char → Prop
  | comma {left right : List Char} : Blank left → Blank right → Separator (left ++ ',' :: right)
  | blanks {gap : List Char} : gap ≠ [] → Blank gap → Separator gap

/-- A text without blanks around it that `float()` reads as this value. -/
def Reads (text : List Char) (value : PyFloat) : Prop :=
  Trimmed text ∧ floatOfString (String.ofList text) = some value

/-- A line that writes one pair, whose name may be in another case. -/
inductive Writes (p : String × PyFloat) : List Char → Prop
  | entry {left name separator value right trailing : List Char} :
      Blank left → IsName name → upperName (String.ofList name) = upperName p.1 →
      Separator separator → Reads value p.2 → Blank right → Trailing trailing →
      Writes p (left ++ (name ++ separator ++ value) ++ right ++ trailing)

/-- A line with nothing but blanks and a comment. -/
inductive Skipped : List Char → Prop
  | mk {blank trailing : List Char} : Blank blank → Trailing trailing → Skipped (blank ++ trailing)

/-- The lines write the pairs in their order. -/
inductive Renders : List (String × PyFloat) → List (List Char) → Prop
  | nil : Renders [] []
  | skip {pairs line lines} : Skipped line → Renders pairs lines → Renders pairs (line :: lines)
  | pair {p pairs line lines} : Writes p line → Renders pairs lines →
      Renders (p :: pairs) (line :: lines)

theorem untilSlashes_append {body : List Char} (h : '/' ∉ body) (rest : List Char) :
    untilSlashes (body ++ '/' :: '/' :: rest) = body := by
  induction body with
  | nil => rfl
  | cons c body ih =>
    rw [List.mem_cons, not_or] at h
    have hc : c ≠ '/' := Ne.symm h.1
    rw [List.cons_append, untilSlashes, ih h.2]
    rintro - rfl -
    exact hc rfl

theorem untilSlashes_of_not_mem {body : List Char} (h : '/' ∉ body) : untilSlashes body = body := by
  induction body with
  | nil => rfl
  | cons c body ih =>
    rw [List.mem_cons, not_or] at h
    have hc : c ≠ '/' := Ne.symm h.1
    rw [untilSlashes, ih h.2]
    rintro - rfl -
    exact hc rfl

theorem stripComment_append {body trailing : List Char} (hhash : '#' ∉ body) (hslash : '/' ∉ body)
    (ht : Trailing trailing) : stripComment (body ++ trailing) = pyStrip body := by
  have hkeep : ∀ c ∈ body, decide (c ≠ '#') = true := by
    intro c hc
    exact decide_eq_true fun heq => hhash (heq ▸ hc)
  rw [stripComment, List.takeWhile_append_of_pos hkeep]
  cases ht with
  | none => rw [List.takeWhile_nil, List.append_nil, untilSlashes_of_not_mem hslash]
  | hash cs =>
    rw [List.takeWhile_cons_of_neg (by simp), List.append_nil, untilSlashes_of_not_mem hslash]
  | slashes cs =>
    rw [List.takeWhile_cons_of_pos (by decide), List.takeWhile_cons_of_pos (by decide),
      untilSlashes_append hslash]

theorem asciiNumeral_toNat {c : Char} (h : asciiNumeral c = true) :
    (48 ≤ c.toNat ∧ c.toNat ≤ 57) ∨ (65 ≤ c.toNat ∧ c.toNat ≤ 90) ∨
      (97 ≤ c.toNat ∧ c.toNat ≤ 122) ∨ c.toNat = 95 ∨ c.toNat = 46 ∨ c.toNat = 43 ∨ c.toNat =
        45 := by
  -- the letters and digits in terms of code points
  delta asciiNumeral Char.isAlphanum Char.isAlpha Char.isUpper Char.isLower Char.isDigit at h
  simp only [Bool.or_eq_true, Bool.and_eq_true, decide_eq_true_eq, UInt32.le_iff_toNat_le,
    ge_iff_le] at h
  have hval : c.toNat = c.val.toNat := rfl
  obtain ((((hletter | hdigit) | rfl) | rfl) | rfl) | rfl := h
  · have hA : 'A'.val.toNat = 65 := rfl
    have hZ : 'Z'.val.toNat = 90 := rfl
    have ha : 'a'.val.toNat = 97 := rfl
    have hz : 'z'.val.toNat = 122 := rfl
    omega
  · have h0 : '0'.val.toNat = 48 := rfl
    have h9 : '9'.val.toNat = 57 := rfl
    omega
  all_goals decide

theorem asciiDigit_of_space {c : Char} (h : pyIsSpace c = true) : asciiDigit c = c := by
  have hspaces : ∀ n ∈ List.range' 9 5 ++ List.range' 28 5 ++ List.range' 0x2000 11 ++
      [0x85, 0xa0, 0x1680, 0x2028, 0x2029, 0x202f, 0x205f, 0x3000], decimalValue n = none := by
    decide
  have hmem : c.toNat ∈ List.range' 9 5 ++ List.range' 28 5 ++ List.range' 0x2000 11 ++
      [0x85, 0xa0, 0x1680, 0x2028, 0x2029, 0x202f, 0x205f, 0x3000] := by
    simp only [pyIsSpace, Bool.or_eq_true, Bool.and_eq_true, decide_eq_true_eq] at h
    simp only [List.mem_append, List.mem_range'_1, List.mem_cons, List.not_mem_nil, or_false]
    omega
  rw [asciiDigit, hspaces _ hmem]

theorem pyIsSpace_of_numeralChar {c : Char} (h : numeralChar c = true) : pyIsSpace c = false := by
  by_contra hspace
  rw [Bool.not_eq_false] at hspace
  rw [numeralChar, asciiDigit_of_space hspace] at h
  have hn := asciiNumeral_toNat h
  simp only [pyIsSpace, Bool.or_eq_true, Bool.and_eq_true, decide_eq_true_eq] at hspace
  omega

theorem asciiDigit_of_ascii {c : Char} (h : c.toNat < 128) : asciiDigit c = c := by
  have hall : ∀ n < 128, asciiDigit (Char.ofNat n) = Char.ofNat n := by decide +kernel
  have hc := hall c.toNat h
  rwa [Char.ofNat_toNat] at hc

theorem asciiNumeral_of_nameChar {c : Char} (h : nameChar c = true) : asciiNumeral c = true := by
  simp only [nameChar, Bool.or_eq_true] at h
  simp only [asciiNumeral, Bool.or_eq_true]
  tauto

theorem numeralChar_of_nameChar {c : Char} (h : nameChar c = true) : numeralChar c = true := by
  have hnumeral := asciiNumeral_of_nameChar h
  have hn := asciiNumeral_toNat hnumeral
  rwa [numeralChar, asciiDigit_of_ascii (by omega)]

theorem Blank.not_mem {pad : List Char} (h : Blank pad) {c : Char} (hc : pyIsSpace c = false) :
    c ∉ pad := by
  intro hmem
  rw [h c hmem] at hc
  cases hc

theorem Skipped.stripComment {line : List Char} (h : Skipped line) : stripComment line = [] := by
  obtain ⟨hblank, ht⟩ := h
  rw [stripComment_append (hblank.not_mem rfl) (hblank.not_mem rfl) ht]
  rename_i pad _
  have hpad : pyStrip (pad ++ [] ++ []) = [] :=
    pyStrip_pad hblank (by simp [Blank]) (by simp [Trimmed])
  simpa using hpad

theorem not_mem_of_numeralChar {cs : List Char} (h : ∀ c ∈ cs, numeralChar c = true) {c : Char}
    (hc : numeralChar c = false) : c ∉ cs := by
  intro hmem
  rw [h c hmem] at hc
  cases hc

section Entry

variable {name separator value : List Char}

theorem Separator.not_mem (h : Separator separator) {c : Char} (hc : pyIsSpace c = false)
    (hcomma : c ≠ ',') : c ∉ separator := by
  cases h with
  | comma hl hr => simp [hl.not_mem hc, hr.not_mem hc, hcomma]
  | blanks _ hgap => exact hgap.not_mem hc

/-- The name and the value are cut at the comma. -/
theorem splitEntry_comma {left right : List Char} (hname : ∀ c ∈ name, numeralChar c = true)
    (hl : Blank left) :
    splitEntry (name ++ (left ++ ',' :: right) ++ value) = some (name ++ left, right ++ value) := by
  have hkeep : ∀ c ∈ name ++ left, decide (c ≠ ',') = true := by
    intro c hc
    apply decide_eq_true
    rintro rfl
    rcases List.mem_append.mp hc with hc | hc
    · exact not_mem_of_numeralChar hname rfl hc
    · exact hl.not_mem rfl hc
  have hline : name ++ (left ++ ',' :: right) ++ value = (name ++ left) ++
    ',' :: (right ++ value) := by
    simp
  rw [splitEntry, hline, if_pos (by simp), List.takeWhile_append_of_pos hkeep,
    List.dropWhile_append_of_pos hkeep]
  simp

/-- Without a comma they are cut at the blanks. -/
theorem splitEntry_blanks (hname : ∀ c ∈ name, numeralChar c = true)
    (hvalue : ∀ c ∈ value, numeralChar c = true) (hgapne : separator ≠ [])
    (hgap : Blank separator) :
    splitEntry (name ++ separator ++ value) = some (name, value) := by
  have hcomma : ',' ∉ name ++ separator ++ value := by
    simp [not_mem_of_numeralChar hname (c := ',') rfl, hgap.not_mem (c := ',') rfl,
      not_mem_of_numeralChar hvalue (c := ',') rfl]
  have hkeep : ∀ c ∈ name, (!pyIsSpace c) = true := by
    intro c hc
    rw [pyIsSpace_of_numeralChar (hname c hc)]
    rfl
  obtain ⟨g, gap, rfl⟩ := List.exists_cons_of_ne_nil hgapne
  have hg : (!pyIsSpace g) = false := by
    rw [hgap g List.mem_cons_self]
    rfl
  have hrest : ((name ++ (g :: gap) ++ value).dropWhile fun c => !pyIsSpace c) =
      g :: (gap ++ value) := by
    rw [List.append_assoc, List.dropWhile_append_of_pos hkeep]
    simp [hg]
  have hvalueHead : ∀ c, value.head? = some c → pyIsSpace c = false := fun c hc =>
    pyIsSpace_of_numeralChar (hvalue c (List.mem_of_mem_head? hc))
  rw [splitEntry, if_neg hcomma, hrest, List.append_assoc, List.takeWhile_append_of_pos hkeep]
  simp only [← List.cons_append, dropWhile_blank hgap hvalueHead]
  simp [hg]

/-- The name and the value come apart, up to the blanks at the comma. -/
theorem splitEntry_entry (hname : ∀ c ∈ name, numeralChar c = true)
    (hvalue : ∀ c ∈ value, numeralChar c = true) (hs : Separator separator) :
    ∃ n v, splitEntry (name ++ separator ++ value) = some (n, v) ∧ pyStrip n = name ∧
      pyStrip v = value := by
  have htrimmed : ∀ {cs : List Char}, (∀ c ∈ cs, numeralChar c = true) → Trimmed cs := fun h =>
    trimmed_of_forall fun c hc => pyIsSpace_of_numeralChar (h c hc)
  have hblank : Blank [] := by simp [Blank]
  cases hs with
  | @comma left right hl hr =>
    refine ⟨name ++ left, right ++ value, splitEntry_comma hname hl, ?_, ?_⟩
    · simpa using pyStrip_pad hblank hl (htrimmed hname)
    · simpa using pyStrip_pad hr hblank (htrimmed hvalue)
  | blanks hgapne hgap =>
    refine ⟨name, value, splitEntry_blanks hname hvalue hgapne hgap, ?_, ?_⟩
    · exact pyStrip_of_trimmed (htrimmed hname)
    · exact pyStrip_of_trimmed (htrimmed hvalue)

theorem Reads.chars {v : PyFloat} (h : Reads value v) : ∀ c ∈ value, numeralChar c = true := by
  have hchars := floatOfString_chars h.2
  rwa [numeralStrip_of_trimmed h.1] at hchars

theorem Reads.ne_nil {v : PyFloat} (h : Reads value v) : value ≠ [] := by
  rintro rfl
  have hempty : floatOfString (String.ofList []) = none := by decide
  have hread := h.2
  rw [hempty] at hread
  cases hread

theorem trimmed_entry {v : PyFloat} (hname : IsName name) (hv : Reads value v) :
    Trimmed (name ++ separator ++ value) := by
  constructor
  · intro c hc
    rw [List.append_assoc, List.head?_append_of_ne_nil _ hname.1] at hc
    exact pyIsSpace_of_numeralChar (numeralChar_of_nameChar (hname.2 c (List.mem_of_mem_head? hc)))
  · intro c hc
    rw [List.getLast?_append_of_ne_nil _ hv.ne_nil] at hc
    exact pyIsSpace_of_numeralChar (hv.chars c (List.mem_of_getLast? hc))

end Entry

/-- A line that writes a pair is read as this pair, but for the case of the name. -/
theorem Writes.read {p : String × PyFloat} {line : List Char} (h : Writes p line) :
    ∃ name n v, stripComment line ≠ [] ∧ splitEntry (stripComment line) = some (n, v) ∧
      pyStrip n = name ∧ IsName name ∧ upperName (String.ofList name) = upperName p.1 ∧
        pyFloat (.str (String.ofList (pyStrip v))) = .ok p.2 := by
  obtain ⟨hleft, hname, hupper, hs, hvalue, hright, ht⟩ := h
  rename_i left name separator value right trailing
  have hchars : ∀ c ∈ name, numeralChar c = true := fun c hc =>
    numeralChar_of_nameChar (hname.2 c hc)
  have hfree : ∀ c, pyIsSpace c = false → numeralChar c = false → c ≠ ',' →
      c ∉ left ++ (name ++ separator ++ value) ++ right := by
    intro c hspace hnumeral hcomma
    simp [hleft.not_mem hspace, not_mem_of_numeralChar hchars hnumeral, hs.not_mem hspace hcomma,
      not_mem_of_numeralChar hvalue.chars hnumeral, hright.not_mem hspace]
  have hline : stripComment (left ++ (name ++ separator ++ value) ++ right ++ trailing) =
      name ++ separator ++ value := by
    rw [stripComment_append (hfree '#' rfl rfl (by decide)) (hfree '/' rfl rfl (by decide)) ht,
      pyStrip_pad hleft hright (trimmed_entry hname hvalue)]
  obtain ⟨n, v, hsplit, hn, hv⟩ := splitEntry_entry hchars hvalue.chars hs
  refine ⟨name, n, v, ?_, ?_, hn, hname, hupper, ?_⟩
  · rw [hline]
    simp [hname.1]
  · rw [hline, hsplit]
  · rw [hv]
    simp [pyFloat, hvalue.2]

theorem parmPairs_skip {line : List Char} (h : stripComment line = []) (lines : List (List Char)) :
    parmPairs (line :: lines) = parmPairs lines := by
  rw [parmPairs, if_pos h]

/-- The pairs are read in their order, each under its name in some case. -/
theorem parmPairs_renders {pairs : List (String × PyFloat)} {lines : List (List Char)}
    (h : Renders pairs lines) : ∃ read, parmPairs lines = .ok read ∧
      (∀ q ∈ read, IsName q.1.toList) ∧
        List.Forall₂ (fun p q : String × PyFloat => upperName q.1 = upperName p.1 ∧ q.2 = p.2)
          pairs read := by
  induction h with
  | nil => exact ⟨[], rfl, by simp, .nil⟩
  | skip hline _ ih =>
    rw [parmPairs_skip hline.stripComment]
    exact ih
  | @pair p pairs line lines hline _ ih =>
    obtain ⟨read, hread, hnames, hall⟩ := ih
    obtain ⟨name, n, v, hne, hsplit, hn, hname, hupper, hvalue⟩ := hline.read
    refine ⟨(String.ofList name, p.2) :: read, ?_, ?_, .cons ⟨hupper, rfl⟩ hall⟩
    · rw [parmPairs, if_neg hne, hsplit]
      simp [hvalue, hread, hn]
    · exact List.forall_mem_cons.mpr ⟨by simpa using hname, hnames⟩

variable {cm : CaseMap}

theorem isAscii_of_name {name : List Char} (h : IsName name) : isAscii name = true := by
  rw [isAscii, List.all_eq_true]
  intro c hc
  have hn := asciiNumeral_toNat (asciiNumeral_of_nameChar (h.2 c hc))
  exact decide_eq_true (by omega)

theorem nameChar_toUpper {c : Char} (h : nameChar c = true) : nameChar c.toUpper = true := by
  have hn := asciiNumeral_toNat (asciiNumeral_of_nameChar h)
  have hall : ∀ n < 128, nameChar (Char.ofNat n) = true →
    nameChar (Char.ofNat n).toUpper = true := by
    decide
  have hc := hall c.toNat (by omega)
  rw [Char.ofNat_toNat] at hc
  exact hc h

theorem normalizeName_of_name {name : String} (h : IsName name.toList) :
    normalizeName cm name = .ok (upperName name) := by
  have hspace : ∀ c ∈ name.toList.map Char.toUpper, pyIsSpace c = false := by
    intro c hc
    obtain ⟨d, hd, rfl⟩ := List.mem_map.mp hc
    exact pyIsSpace_of_numeralChar (numeralChar_of_nameChar (nameChar_toUpper (h.2 d hd)))
  have hstrip : pyStrip name.toList = name.toList :=
    pyStrip_of_trimmed (trimmed_of_forall fun c hc =>
      pyIsSpace_of_numeralChar (numeralChar_of_nameChar (h.2 c hc)))
  have hvalid : ((name.toList.map Char.toUpper).isEmpty ||
      (name.toList.map Char.toUpper).any pyIsSpace) = false := by
    rw [Bool.or_eq_false_iff, List.any_eq_false]
    exact ⟨by simpa using h.1, fun c hc => by simp [hspace c hc]⟩
  rw [normalizeName, hstrip, cm.upper_ascii _ (isAscii_of_name h), hvalid]
  rfl

/-- The value of the last pair with this name in upper case. -/
def lastGiven (k : String) : List (String × PyFloat) → Option PyFloat
  | [] => none
  | (name, value) :: pairs =>
    (lastGiven k pairs).or (if upperName name = k then some value else none)

/-- Names are kept in upper case, and the last value of each of them counts. -/
theorem insertPairs_of_names {pairs : List (String × PyFloat)}
    (h : ∀ p ∈ pairs, IsName p.1.toList) (out : ParamSet) :
    ∃ params, ParamSet.insertPairs cm pairs out = .ok params ∧
      ∀ k, params.lookup k = (lastGiven k pairs).or (out.lookup k) := by
  induction pairs generalizing out with
  | nil => exact ⟨out, rfl, fun k => rfl⟩
  | cons p pairs ih =>
    obtain ⟨name, value⟩ := p
    rw [List.forall_mem_cons] at h
    obtain ⟨params, hparams, hlookup⟩ := ih h.2 (out.insert (upperName name) value)
    refine ⟨params, ?_, fun k => ?_⟩
    · rw [ParamSet.insertPairs, normalizeName_of_name h.1]
      exact hparams
    · rw [hlookup, ParamSet.lookup_insert, lastGiven, Option.or_assoc]
      congr 1
      by_cases hk : k = upperName name
      · simp [hk]
      · simp [hk, Ne.symm hk]

theorem lastGiven_congr {pairs read : List (String × PyFloat)}
    (h : List.Forall₂ (fun p q : String × PyFloat => upperName q.1 = upperName p.1 ∧ q.2 = p.2)
      pairs read) (k : String) : lastGiven k read = lastGiven k pairs := by
  induction h with
  | nil => rfl
  | cons hp _ ih => rw [lastGiven, lastGiven, ih, hp.1, hp.2]

theorem parseParmText_of_renders {pairs : List (String × PyFloat)} {text : String}
    (h : Renders pairs (splitLines text)) : ∃ params, parseParmText cm text = .ok params ∧
      ∀ k, params.lookup k = lastGiven k pairs := by
  obtain ⟨read, hread, hnames, hall⟩ := parmPairs_renders h
  obtain ⟨params, hparams, hlookup⟩ := insertPairs_of_names hnames .empty
  refine ⟨params, ?_, fun k => ?_⟩
  · rw [parseParmText, hread]
    exact hparams
  · rw [hlookup, lastGiven_congr hall]
    exact Option.or_none

end MowerRover.Params
