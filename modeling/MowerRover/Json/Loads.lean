import MowerRover.Dict
import MowerRover.Errors
import MowerRover.Json.RoundTrip
import MowerRover.Text

/-!
# JSON between two programs in Python

`json.dumps` with an indent, and `json.loads`, which tells integers from floats,
knows the names that `dumps` gives to infinities and to not-a-number, and keeps
the last value of a key. Every value is read back as it was written. Neither
converts an integer of more than 4300 digits.
-/

namespace MowerRover.Json

open Numeric

/-- A line break and the blanks of the next line. -/
def newline (width depth : ℕ) : List Char := '\n' :: List.replicate (width * depth) ' '

mutual

/-- `json.dumps(v, indent=width)` for a value at a depth. -/
def dumpsIndent (width depth : ℕ) : Value → List Char
  | .null => dumps .null
  | .bool b => dumps (.bool b)
  | .int n => dumps (.int n)
  | .float x => dumps (.float x)
  | .str s => dumps (.str s)
  | .list [] => ['[', ']']
  | .list (v :: vs) =>
    '[' :: (newline width (depth + 1) ++
      (dumpsIndent width (depth + 1) v ++ indentItems width depth vs))
  | .dict [] => ['{', '}']
  | .dict (m :: ms) =>
    '{' :: (newline width (depth + 1) ++
      (indentMember width (depth + 1) m ++ indentMembers width depth ms))

/-- The items after the first, with the closing bracket. -/
def indentItems (width depth : ℕ) : List Value → List Char
  | [] => newline width depth ++ [']']
  | v :: vs =>
    ',' :: (newline width (depth + 1) ++
      (dumpsIndent width (depth + 1) v ++ indentItems width depth vs))

def indentMember (width depth : ℕ) : String × Value → List Char
  | (k, v) => dumpsString k.toList ++ ':' :: ' ' :: dumpsIndent width depth v

def indentMembers (width depth : ℕ) : List (String × Value) → List Char
  | [] => newline width depth ++ ['}']
  | m :: ms =>
    ',' :: (newline width (depth + 1) ++
      (indentMember width (depth + 1) m ++ indentMembers width depth ms))

end

/-- A `JSONDecodeError`, or the `ValueError` of `int` for a numeral with too many digits. -/
inductive LoadsError
  | decode
  | digits (count : ℕ)
  deriving DecidableEq, Repr

def orDecode {α : Type} : Option α → Except LoadsError α
  | none => .error .decode
  | some a => .ok a

@[simp] theorem orDecode_some {α : Type} (a : α) : orDecode (some a) = .ok a := rfl

/-- The number at the front of a text goes on behind its integer part. -/
def isFraction (cs : List Char) : Bool :=
  match Numeral.parseInt (Numeral.parseMinus cs).2 with
  | some (_, c :: _) => c == '.' || Numeral.isExpMark c
  | _ => false

def word (text : String) (v : Value) (cs : List Char) : Option (Value × List Char) :=
  if text.toList.isPrefixOf cs then some (v, cs.drop text.toList.length) else none

/-- The names of the floats that have no numeral. -/
def loadsConstant (cs : List Char) : Option (Value × List Char) :=
  (word "NaN" (.float ⟨.nan, trivial⟩) cs).or
    ((word "Infinity" (.float ⟨.inf false, trivial⟩) cs).or
      (word "-Infinity" (.float ⟨.inf true, trivial⟩) cs))

def loadsNumber (cs : List Char) : Except LoadsError (Value × List Char) :=
  match Numeral.parse cs with
  | none => orDecode (loadsConstant cs)
  | some (n, rest) =>
    if isFraction cs then .ok (.float n.toDouble, rest)
    else if maxStrDigits < n.int.length then .error (.digits n.int.length)
    else .ok (.int (if n.negative then -digitsValue n.int else digitsValue n.int), rest)

/-- The entries of a dictionary that is given these one after the other. -/
def dictOf (members : List (String × Value)) : List (String × Value) :=
  members.foldl (fun entries m => Dict.setEntry m.1 m.2 entries) []

mutual

/-- A value and what follows it; the number bounds the depth and the length. -/
def loadsValue : ℕ → List Char → Except LoadsError (Value × List Char)
  | 0, _ => .error .decode
  | fuel + 1, cs =>
    match skipWs cs with
    | [] => .error .decode
    | c :: rest =>
      if c = '"' then orDecode ((parseString rest).map fun r => (.str (String.ofList r.1), r.2))
      else if c = '[' then
        match skipWs rest with
        | ']' :: rest => .ok (.list [], rest)
        | rest => do
          let (v, rest) ← loadsValue fuel rest
          let (vs, rest) ← loadsItems fuel rest
          return (.list (v :: vs), rest)
      else if c = '{' then
        match skipWs rest with
        | '}' :: rest => .ok (.dict [], rest)
        | rest => do
          let (m, rest) ← loadsMember fuel rest
          let (ms, rest) ← loadsMembers fuel rest
          return (.dict (dictOf (m :: ms)), rest)
      else if c = 't' then orDecode (word "rue" (.bool true) rest)
      else if c = 'f' then orDecode (word "alse" (.bool false) rest)
      else if c = 'n' then orDecode (word "ull" .null rest)
      else loadsNumber (c :: rest)

def loadsItems : ℕ → List Char → Except LoadsError (List Value × List Char)
  | 0, _ => .error .decode
  | fuel + 1, cs =>
    match skipWs cs with
    | ']' :: rest => .ok ([], rest)
    | ',' :: rest => do
      let (v, rest) ← loadsValue fuel rest
      let (vs, rest) ← loadsItems fuel rest
      return (v :: vs, rest)
    | _ => .error .decode

def loadsMember : ℕ → List Char → Except LoadsError ((String × Value) × List Char)
  | 0, _ => .error .decode
  | fuel + 1, cs =>
    match skipWs cs with
    | '"' :: rest => do
      let (k, rest) ← orDecode (parseString rest)
      match skipWs rest with
      | ':' :: rest => do
        let (v, rest) ← loadsValue fuel rest
        return ((String.ofList k, v), rest)
      | _ => .error .decode
    | _ => .error .decode

def loadsMembers : ℕ → List Char → Except LoadsError (List (String × Value) × List Char)
  | 0, _ => .error .decode
  | fuel + 1, cs =>
    match skipWs cs with
    | '}' :: rest => .ok ([], rest)
    | ',' :: rest => do
      let (m, rest) ← loadsMember fuel rest
      let (ms, rest) ← loadsMembers fuel rest
      return (m :: ms, rest)
    | _ => .error .decode

end

/-- `json.loads` -/
def loads (cs : List Char) : Except LoadsError Value := do
  let (v, rest) ← loadsValue (cs.length + 1) cs
  if skipWs rest = [] then pure v else throw .decode

mutual

/-- What `json.dumps` can be given: no dictionary in the value has a key twice, and no integer has
more digits than `str` converts. -/
def Value.Writable : Value → Prop
  | .null | .bool _ | .float _ | .str _ => True
  | .int n => (decimalDigits n.natAbs).length ≤ maxStrDigits
  | .list vs => WritableItems vs
  | .dict ms => (ms.map Prod.fst).Nodup ∧ WritableMembers ms

def WritableItems : List Value → Prop
  | [] => True
  | v :: vs => v.Writable ∧ WritableItems vs

def WritableMember : String × Value → Prop
  | (_, v) => v.Writable

def WritableMembers : List (String × Value) → Prop
  | [] => True
  | m :: ms => WritableMember m ∧ WritableMembers ms

end

theorem setEntry_append {k : String} {v : Value} {entries : List (String × Value)}
    (h : k ∉ entries.map Prod.fst) : Dict.setEntry k v entries = entries ++ [(k, v)] := by
  induction entries with
  | nil => rfl
  | cons e entries ih =>
    rw [List.map_cons, List.mem_cons, not_or] at h
    rw [Dict.setEntry, if_neg (Ne.symm h.1), ih h.2, List.cons_append]

/-- Entries with different keys stay as they are. -/
theorem dictOf_of_nodup {members : List (String × Value)} (h : (members.map Prod.fst).Nodup) :
    dictOf members = members := by
  have hfold : ∀ entries : List (String × Value), ((entries ++ members).map Prod.fst).Nodup →
      members.foldl (fun entries m => Dict.setEntry m.1 m.2 entries) entries =
        entries ++ members := by
    clear h
    induction members with
    | nil => exact fun entries _ => (List.append_nil entries).symm
    | cons m members ih =>
      intro entries hnodup
      have hnew : m.1 ∉ entries.map Prod.fst := by
        rw [List.map_append, List.nodup_append] at hnodup
        exact fun hmem => hnodup.2.2 _ hmem _ List.mem_cons_self rfl
      rw [List.foldl_cons, setEntry_append hnew, ih _ (by simpa using hnodup)]
      simp
  exact hfold [] h

theorem skipWs_append (ws : List Char) (h : ∀ c ∈ ws, isWs c = true) (cs : List Char) :
    skipWs (ws ++ cs) = skipWs cs := by
  induction ws with
  | nil => rfl
  | cons c ws ih =>
    rw [List.forall_mem_cons] at h
    rw [List.cons_append, skipWs, List.dropWhile_cons_of_pos h.1]
    exact ih h.2

theorem isWs_newline {width depth : ℕ} : ∀ c ∈ newline width depth, isWs c = true := by
  intro c hc
  rcases List.mem_cons.mp hc with rfl | hc
  · rfl
  · rw [List.eq_of_mem_replicate hc]
    rfl

theorem skipWs_newline (width depth : ℕ) (cs : List Char) :
    skipWs (newline width depth ++ cs) = skipWs cs := skipWs_append _ isWs_newline cs

theorem loadsValue_skipWs {cs ds : List Char} (h : skipWs cs = skipWs ds) (fuel : ℕ) :
    loadsValue fuel cs = loadsValue fuel ds := by
  cases fuel with
  | zero => rfl
  | succ fuel => rw [loadsValue, loadsValue, h]

theorem loadsMember_skipWs {cs ds : List Char} (h : skipWs cs = skipWs ds) (fuel : ℕ) :
    loadsMember fuel cs = loadsMember fuel ds := by
  cases fuel with
  | zero => rfl
  | succ fuel => rw [loadsMember, loadsMember, h]

/-- What follows the integer part of a numeral. -/
theorem isFraction_text {n : Numeral} (hn : n.WellFormed) {rest : List Char}
    (hrest : Numeral.Follow rest) :
    isFraction (n.text ++ rest) = decide (n.frac ≠ [] ∨ n.exp ≠ 0) := by
  have hexp := (Numeral.noDigit_expText n.exp hrest).1
  have hint := Numeral.parseInt_append hn.int_digits hn.int_lead
    (Numeral.noDigit_frac (n := n) hexp)
  rw [isFraction, Numeral.text]
  simp only [List.append_assoc, Numeral.parseMinus_append hn, hint]
  by_cases hfrac : n.frac = []
  · by_cases hzero : n.exp = 0
    · cases rest with
      | nil => simp [hfrac, hzero]
      | cons c rest =>
        obtain ⟨-, hdot, hmark⟩ := hrest c rfl
        simp [hfrac, hzero, hdot, hmark]
    · simp [hfrac, hzero, Numeral.expText, Numeral.isExpMark]
  · simp [hfrac]

theorem layout_isFraction (negative : Bool) {d : Decimal} (hd : d.1 ≠ 0) :
    (layout negative d).frac ≠ [] ∨ (layout negative d).exp ≠ 0 := by
  obtain ⟨lead, rest, hlead, -⟩ := significant_lead hd
  rw [layout]
  split_ifs with hexp hneg hlong
  · right
    dsimp only
    omega
  · left
    simp [hlead]
  · left
    simp
  · left
    simp only [ne_eq, List.drop_eq_nil_iff, not_le]
    omega

/-- Every float is printed so; zero is `0.0`. -/
theorem finiteNumeral_isFraction {x : Double} {s : Bool} {q : ℚ≥0} (hx : x.value = .fin s q) :
    (finiteNumeral s q).frac ≠ [] ∨ (finiteNumeral s q).exp ≠ 0 := by
  unfold finiteNumeral
  by_cases hz : q = 0
  · rw [if_pos hz]
    simp
  · rw [if_neg hz]
    refine layout_isFraction s fun hzero => hz ?_
    have hshortest := shortest_readsAs (hx ▸ x.isDouble) hz
    rw [Decimal.value, hzero, Nat.cast_zero, zero_mul, readDouble_zero] at hshortest
    exact (SignedFloat.fin.inj hshortest).2.symm

theorem loadsNumber_text {n : Numeral} (hn : n.WellFormed) {rest : List Char}
    (hrest : Numeral.Follow rest) :
    loadsNumber (n.text ++ rest) =
      if n.frac ≠ [] ∨ n.exp ≠ 0 then .ok (.float n.toDouble, rest)
      else if maxStrDigits < n.int.length then .error (.digits n.int.length)
      else .ok (.int (if n.negative then -digitsValue n.int else digitsValue n.int), rest) := by
  rw [loadsNumber, Numeral.parse_text hn hrest]
  simp only [isFraction_text hn hrest, decide_eq_true_eq]

theorem loadsValue_numeral {n : Numeral} (hn : n.WellFormed) (rest : List Char) (fuel : ℕ) :
    loadsValue (fuel + 1) (n.text ++ rest) = loadsNumber (n.text ++ rest) := by
  obtain ⟨c, cs, htext, hstart⟩ := hn.text_start
  obtain ⟨hws, h1, h2, -, h3, h4, h5, h6⟩ := hstart.not_special
  rw [htext, List.cons_append, loadsValue, skipWs_cons hws]
  simp only [h1, h2, h3, h4, h5, h6, if_false]

theorem loadsValue_int {n : ℤ} (hwritable : (Value.int n).Writable) {rest : List Char}
    (hrest : Numeral.Follow rest) (fuel : ℕ) :
    loadsValue (fuel + 1) (dumps (.int n) ++ rest) = .ok (.int n, rest) := by
  have hn := intNumeral_wellFormed n
  have hshort : ¬ maxStrDigits < (intNumeral n).int.length := not_lt.mpr hwritable
  rw [dumps, loadsValue_numeral hn, loadsNumber_text hn hrest, if_neg (by simp [intNumeral]),
    if_neg hshort]
  by_cases hneg : n < 0
  · simp [intNumeral, digitsValue_decimalDigits, hneg, abs_of_neg hneg]
  · simp [intNumeral, digitsValue_decimalDigits, hneg, abs_of_nonneg (not_lt.mp hneg)]

theorem loadsNumber_constant {cs : List Char} (h : Numeral.parse cs = none) :
    loadsNumber cs = orDecode (loadsConstant cs) := by
  rw [loadsNumber, h]

theorem loadsValue_float (x : Double) {rest : List Char} (hrest : Numeral.Follow rest) (fuel : ℕ) :
    loadsValue (fuel + 1) (dumps (.float x) ++ rest) = .ok (.float x, rest) := by
  rw [dumps, floatText]
  cases hx : x.value with
  | fin s q =>
    have hn := finiteNumeral_wellFormed (s := s) (q := q) (hx ▸ x.isDouble)
    dsimp only
    rw [loadsValue_numeral hn, loadsNumber_text hn hrest,
      if_pos (finiteNumeral_isFraction hx), finiteNumeral_toDouble hx]
  | inf s =>
    obtain rfl : x = ⟨.inf s, trivial⟩ := Double.ext hx
    cases s with
    | false =>
      have hnumber : loadsNumber ('I' :: ("nfinity".toList ++ rest)) = _ :=
        loadsNumber_constant (Numeral.parse_eq_none (by decide) (by decide))
      rw [loadsValue]
      simp only [String.reduceToList, List.cons_append, List.nil_append] at hnumber ⊢
      simp [skipWs, isWs, hnumber, loadsConstant, word]
    | true =>
      have hnumber : loadsNumber ('-' :: 'I' :: ("nfinity".toList ++ rest)) = _ :=
        loadsNumber_constant (Numeral.parse_minus_eq_none (by decide))
      rw [loadsValue]
      simp only [String.reduceToList, List.cons_append, List.nil_append] at hnumber ⊢
      simp [skipWs, isWs, hnumber, loadsConstant, word]
  | nan =>
    obtain rfl : x = ⟨.nan, trivial⟩ := Double.ext hx
    have hnumber : loadsNumber ('N' :: ("aN".toList ++ rest)) = _ :=
      loadsNumber_constant (Numeral.parse_eq_none (by decide) (by decide))
    rw [loadsValue]
    simp only [String.reduceToList, List.cons_append, List.nil_append] at hnumber ⊢
    simp [skipWs, isWs, hnumber, loadsConstant, word]

section Indented

variable (width depth : ℕ)

theorem dumpsIndent_start (v : Value) :
    ∃ c cs, dumpsIndent width depth v = c :: cs ∧ isWs c = false ∧ c ≠ ']' := by
  cases v with
  | null => exact dumps_start .null
  | bool b => exact dumps_start (.bool b)
  | int n => exact dumps_start (.int n)
  | float x => exact dumps_start (.float x)
  | str s => exact dumps_start (.str s)
  | list vs => cases vs <;> exact ⟨'[', _, by rw [dumpsIndent], by decide, by decide⟩
  | dict ms => cases ms <;> exact ⟨'{', _, by rw [dumpsIndent], by decide, by decide⟩

theorem indentMember_start (m : String × Value) : ∃ cs, indentMember width depth m = '"' :: cs :=
  ⟨_, by rw [indentMember, dumpsString, List.cons_append]⟩

theorem follow_newline (cs : List Char) : Numeral.Follow (newline width depth ++ cs) := by
  intro c hc
  obtain rfl : '\n' = c := by simpa [newline] using hc
  decide

theorem follow_indentItems (vs : List Value) (rest : List Char) :
    Numeral.Follow (indentItems width depth vs ++ rest) := by
  cases vs with
  | nil =>
    rw [indentItems, List.append_assoc]
    exact follow_newline width depth _
  | cons v vs => exact follow_cons (by simp) _

theorem follow_indentMembers (ms : List (String × Value)) (rest : List Char) :
    Numeral.Follow (indentMembers width depth ms ++ rest) := by
  cases ms with
  | nil =>
    rw [indentMembers, List.append_assoc]
    exact follow_newline width depth _
  | cons m ms => exact follow_cons (by simp) _

end Indented

mutual

theorem loadsValue_dumpsIndent (width depth : ℕ) (v : Value) (fuel : ℕ) (rest : List Char)
    (hfuel : (dumpsIndent width depth v).length ≤ fuel) (hrest : Numeral.Follow rest)
    (hv : v.Writable) :
    loadsValue fuel (dumpsIndent width depth v ++ rest) = .ok (v, rest) := by
  obtain ⟨c, cs, hstart, -⟩ := dumpsIndent_start width depth v
  obtain ⟨fuel, rfl⟩ : ∃ n, fuel = n + 1 :=
    ⟨fuel - 1, by rw [hstart, List.length_cons] at hfuel; omega⟩
  match v with
  | .null => rfl
  | .bool true => rfl
  | .bool false => rfl
  | .int n => exact loadsValue_int hv hrest fuel
  | .float x => exact loadsValue_float x hrest fuel
  | .str s =>
    rw [dumpsIndent, dumps, parseString_dumpsString_append, loadsValue, skipWs_cons (by decide)]
    simp [parseString_dumpsString]
  | .list [] => rfl
  | .dict [] => rfl
  | .list (v :: vs) =>
    obtain ⟨d, ds, hd, hws, hbracket⟩ := dumpsIndent_start width (depth + 1) v
    have hlen : (dumpsIndent width (depth + 1) v).length ≤ fuel ∧
        (indentItems width depth vs).length ≤ fuel := by
      rw [dumpsIndent] at hfuel
      simp only [List.length_cons, List.length_append] at hfuel
      omega
    rw [Value.Writable, WritableItems] at hv
    have hhead := loadsValue_dumpsIndent width (depth + 1) v fuel
      (indentItems width depth vs ++ rest) hlen.1 (follow_indentItems width depth vs rest) hv.1
    have htail := loadsItems_indentItems width depth vs fuel rest hlen.2 hv.2
    have hskip : skipWs (newline width (depth + 1) ++
        (dumpsIndent width (depth + 1) v ++ (indentItems width depth vs ++ rest))) =
        dumpsIndent width (depth + 1) v ++ (indentItems width depth vs ++ rest) := by
      rw [skipWs_newline, hd, List.cons_append, skipWs_cons hws]
    rw [dumpsIndent, List.cons_append, List.append_assoc, List.append_assoc, loadsValue,
      skipWs_cons (by decide)]
    simp only [Char.reduceEq, if_false, if_true, hskip]
    split
    · rename_i heq
      rw [hd, List.cons_append] at heq
      exact absurd (List.cons.inj heq).1 hbracket
    · simp [hhead, htail]
  | .dict (m :: ms) =>
    obtain ⟨ds, hd⟩ := indentMember_start width (depth + 1) m
    have hlen : (indentMember width (depth + 1) m).length ≤ fuel ∧
        (indentMembers width depth ms).length ≤ fuel := by
      rw [dumpsIndent] at hfuel
      simp only [List.length_cons, List.length_append] at hfuel
      omega
    rw [Value.Writable, WritableMembers] at hv
    have hhead := loadsMember_indentMember width (depth + 1) m fuel
      (indentMembers width depth ms ++ rest) hlen.1
        (follow_indentMembers width depth ms rest) hv.2.1
    have htail := loadsMembers_indentMembers width depth ms fuel rest hlen.2 hv.2.2
    have hskip : skipWs (newline width (depth + 1) ++
        (indentMember width (depth + 1) m ++ (indentMembers width depth ms ++ rest))) =
        indentMember width (depth + 1) m ++ (indentMembers width depth ms ++ rest) := by
      rw [skipWs_newline, hd, List.cons_append, skipWs_cons (by decide)]
    rw [dumpsIndent, List.cons_append, List.append_assoc, List.append_assoc, loadsValue,
      skipWs_cons (by decide)]
    simp only [Char.reduceEq, if_false, if_true, hskip]
    split
    · rename_i heq
      rw [hd, List.cons_append] at heq
      exact absurd (List.cons.inj heq).1 (by decide)
    · simp [hhead, htail, dictOf_of_nodup hv.1]

theorem loadsItems_indentItems (width depth : ℕ) (vs : List Value) (fuel : ℕ) (rest : List Char)
    (hfuel : (indentItems width depth vs).length ≤ fuel) (hvs : WritableItems vs) :
    loadsItems fuel (indentItems width depth vs ++ rest) = .ok (vs, rest) := by
  match vs, fuel with
  | [], 0 => simp [indentItems, newline] at hfuel
  | [], fuel + 1 =>
    rw [indentItems, List.append_assoc, loadsItems, skipWs_newline]
    rfl
  | v :: vs, 0 => simp [indentItems] at hfuel
  | v :: vs, fuel + 1 =>
    have hlen : (dumpsIndent width (depth + 1) v).length ≤ fuel ∧
        (indentItems width depth vs).length ≤ fuel := by
      rw [indentItems] at hfuel
      simp only [List.length_cons, List.length_append] at hfuel
      omega
    rw [WritableItems] at hvs
    have hhead := loadsValue_dumpsIndent width (depth + 1) v fuel
      (indentItems width depth vs ++ rest) hlen.1 (follow_indentItems width depth vs rest) hvs.1
    have htail := loadsItems_indentItems width depth vs fuel rest hlen.2 hvs.2
    rw [← loadsValue_skipWs (skipWs_newline width (depth + 1) _)] at hhead
    rw [indentItems, List.cons_append, List.append_assoc, List.append_assoc, loadsItems,
      skipWs_cons (by decide)]
    simp [hhead, htail]

theorem loadsMember_indentMember (width depth : ℕ) (m : String × Value) (fuel : ℕ)
    (rest : List Char) (hfuel : (indentMember width depth m).length ≤ fuel)
    (hrest : Numeral.Follow rest) (hm : WritableMember m) :
    loadsMember fuel (indentMember width depth m ++ rest) = .ok (m, rest) := by
  match m, fuel with
  | (k, v), 0 =>
    obtain ⟨cs, hcs⟩ := indentMember_start width depth (k, v)
    simp [hcs] at hfuel
  | (k, v), fuel + 1 =>
    have hlen : (dumpsIndent width depth v).length ≤ fuel := by
      rw [indentMember] at hfuel
      simp only [List.length_cons, List.length_append] at hfuel
      omega
    have hvalue := loadsValue_dumpsIndent width depth v fuel rest hlen hrest hm
    have hblank : skipWs (' ' :: (dumpsIndent width depth v ++ rest)) =
        skipWs (dumpsIndent width depth v ++ rest) := skipWs_append [' '] (by simp [isWs]) _
    rw [← loadsValue_skipWs hblank] at hvalue
    rw [indentMember, List.append_assoc, parseString_dumpsString_append, loadsMember,
      skipWs_cons (by decide)]
    simp [parseString_dumpsString, skipWs_cons (show isWs ':' = false by decide), hvalue]

theorem loadsMembers_indentMembers (width depth : ℕ) (ms : List (String × Value)) (fuel : ℕ)
    (rest : List Char) (hfuel : (indentMembers width depth ms).length ≤ fuel)
    (hms : WritableMembers ms) :
    loadsMembers fuel (indentMembers width depth ms ++ rest) = .ok (ms, rest) := by
  match ms, fuel with
  | [], 0 => simp [indentMembers, newline] at hfuel
  | [], fuel + 1 =>
    rw [indentMembers, List.append_assoc, loadsMembers, skipWs_newline]
    rfl
  | m :: ms, 0 => simp [indentMembers] at hfuel
  | m :: ms, fuel + 1 =>
    have hlen : (indentMember width (depth + 1) m).length ≤ fuel ∧
        (indentMembers width depth ms).length ≤ fuel := by
      rw [indentMembers] at hfuel
      simp only [List.length_cons, List.length_append] at hfuel
      omega
    rw [WritableMembers] at hms
    have hhead := loadsMember_indentMember width (depth + 1) m fuel
      (indentMembers width depth ms ++ rest) hlen.1 (follow_indentMembers width depth ms rest) hms.1
    have htail := loadsMembers_indentMembers width depth ms fuel rest hlen.2 hms.2
    rw [← loadsMember_skipWs (skipWs_newline width (depth + 1) _)] at hhead
    rw [indentMembers, List.cons_append, List.append_assoc, List.append_assoc, loadsMembers,
      skipWs_cons (by decide)]
    simp [hhead, htail]

end

theorem loads_dumpsIndent (width : ℕ) {v : Value} (hv : v.Writable) {blanks : List Char}
    (hblanks : ∀ c ∈ blanks, isWs c = true) :
    loads (dumpsIndent width 0 v ++ blanks) = .ok v := by
  have hfollow : Numeral.Follow blanks := by
    intro c hc
    have hws := hblanks c (List.mem_of_mem_head? hc)
    simp only [isWs, Bool.or_eq_true, decide_eq_true_eq] at hws
    rcases hws with ((rfl | rfl) | rfl) | rfl <;> decide
  have hload := loadsValue_dumpsIndent width 0 v ((dumpsIndent width 0 v ++ blanks).length + 1)
    blanks (by rw [List.length_append]; omega) hfollow hv
  have hskip : skipWs blanks = [] := by
    have happend := skipWs_append _ hblanks []
    rwa [List.append_nil] at happend
  rw [loads, hload]
  simp [hskip]

end MowerRover.Json
