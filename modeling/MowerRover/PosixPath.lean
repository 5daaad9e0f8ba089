import MowerRover.Words

/-!
# Paths

A path of POSIX from its text and back, as `pathlib` has it. A path is a root,
which may be missing, and the names after it; runs of slashes and the name `.`
leave no trace. Exactly two slashes at the front are a root of their own.
-/

namespace MowerRover

/-- What may stand between two slashes. -/
def IsName (name : List Char) : Prop := IsWord (· = '/') name ∧ name ≠ ['.']

inductive PathRoot
  | relative
  | slash
  | slashSlash
  deriving DecidableEq, Repr

def PathRoot.text : PathRoot → List Char
  | .relative => []
  | .slash => ['/']
  | .slashSlash => ['/', '/']

structure PosixPath where
  root : PathRoot
  names : List (List Char)
  isName : ∀ name ∈ names, IsName name

namespace PosixPath

@[ext] theorem ext {p q : PosixPath} (hroot : p.root = q.root) (hnames : p.names = q.names) :
    p = q := by
  cases p
  cases q
  obtain rfl : _ = _ := hroot
  obtain rfl : _ = _ := hnames
  rfl

instance : DecidableEq PosixPath := fun p q =>
  decidable_of_iff (p.root = q.root ∧ p.names = q.names)
    ⟨fun h => ext h.1 h.2, fun h => h ▸ ⟨rfl, rfl⟩⟩

/-- `splitroot`, without the drive. -/
def splitRoot (text : List Char) : PathRoot × List Char :=
  let stripped := text.dropWhile (· = '/')
  match text.length - stripped.length with
  | 0 => (.relative, stripped)
  | 2 => (.slashSlash, stripped)
  | _ => (.slash, stripped)

/-- `Path(text)`. -/
def parse (text : List Char) : PosixPath where
  root := (splitRoot text).1
  names := (words (· = '/') (splitRoot text).2).filter (· ≠ ['.'])
  isName name h := by
    obtain ⟨hword, hdot⟩ := List.mem_filter.mp h
    exact ⟨isWord_of_mem_words hword, by simpa using hdot⟩

/-- `str(path)`, which is never empty. -/
def text (p : PosixPath) : List Char :=
  match p.root.text ++ ['/'].intercalate p.names with
  | [] => ['.']
  | text => text

theorem splitRoot_append {rest : List Char} (root : PathRoot) (h : rest.head? ≠ some '/') :
    splitRoot (root.text ++ rest) = (root, rest) := by
  have hrest : rest.dropWhile (· = '/') = rest := by
    cases rest with
    | nil => rfl
    | cons c rest =>
      rw [List.dropWhile_cons_of_neg]
      simpa using h
  cases root with
  | relative => simp [splitRoot, PathRoot.text, hrest]
  | slash => simp [splitRoot, PathRoot.text, hrest]
  | slashSlash =>
    have hlength : rest.length + 1 + 1 - rest.length = 2 := by omega
    simp [splitRoot, PathRoot.text, hrest, hlength]

theorem head?_intercalate {names : List (List Char)} (h : ∀ name ∈ names, IsName name) :
    (['/'].intercalate names).head? ≠ some '/' := by
  cases names with
  | nil => simp
  | cons name names =>
    obtain ⟨⟨hne, hslash⟩, -⟩ := h name List.mem_cons_self
    cases name with
    | nil => exact absurd rfl hne
    | cons c name =>
      have hc : c ≠ '/' := by simpa using hslash c List.mem_cons_self
      cases names <;> simpa using hc

theorem parse_append (p : PosixPath) : parse (p.root.text ++ ['/'].intercalate p.names) = p := by
  have hsplit := splitRoot_append p.root (head?_intercalate p.isName)
  have hwords : words (· = '/') (['/'].intercalate p.names) = p.names :=
    (words_intercalate_eq_iff (by simp)).mpr fun name hname => (p.isName name hname).1
  apply ext
  · exact congrArg Prod.fst hsplit
  · simp only [parse, hsplit]
    rw [hwords, List.filter_eq_self]
    intro name hname
    simpa using (p.isName name hname).2

theorem parse_text (p : PosixPath) : parse p.text = p := by
  rw [text]
  split
  case h_1 hempty =>
    have hp := parse_append p
    rw [hempty] at hp
    rw [← hp]
    decide
  case h_2 => exact parse_append p

example : (parse "/var//log/./mower/".toList).text = "/var/log/mower".toList := by decide

end PosixPath

end MowerRover
