import MowerRover.Errors

/-!
# Command line options

Declared options on a list of arguments, read from the left: long options with
their value after `=` or in the next argument, short options that may share a
dash, `--` in front of what is not to be read. An option that takes a value
takes the next argument whatever it looks like. Without interspersed arguments
the first argument that is no option ends the options.
-/

namespace MowerRover.CommandLine

/-- An option sets its key: to the value it takes, or just by being there. -/
structure OptionDecl where
  key : String
  long : List String
  short : List Char := []
  takesValue : Bool := false

inductive UsageError
  | noSuchOption (name : String)
  | needsArgument (name : String)
  | takesNoValue (name : String)
  | missingArgument (name : String)
  | badParameter (error : PyError)
  | extraArguments (args : List String)
  | noSuchCommand (name : String)
  /-- not an error: the help is shown and nothing else happens -/
  | helpShown

/-- The options that were set, in this order, and the other arguments. -/
structure Parsed where
  values : List (String × Option String) := []
  args : List String := []
  deriving DecidableEq, Repr

/-- What one argument sets; the last option in it may still need its value. -/
inductive Setting
  | complete (values : List (String × Option String))
  | pending (values : List (String × Option String)) (key : String)
  deriving DecidableEq, Repr

namespace Setting

def after (value : String × Option String) : Setting → Setting
  | complete values => complete (value :: values)
  | pending values key => pending (value :: values) key

end Setting

def Parsed.after (values : List (String × Option String)) (parsed : Parsed) : Parsed :=
  { parsed with values := values ++ parsed.values }

variable (decls : List OptionDecl)

/-- Options behind one dash. -/
def matchShort : List Char → Except UsageError Setting
  | [] => pure (.complete [])
  | c :: cs =>
    match decls.find? fun o => c ∈ o.short with
    | none => throw (.noSuchOption (String.ofList ['-', c]))
    | some o =>
      if o.takesValue then
        if cs = [] then pure (.pending [] o.key)
        else pure (.complete [(o.key, some (String.ofList cs))])
      else do pure ((← matchShort cs).after (o.key, none))

def matchOption (arg : String) : Except UsageError Setting :=
  let name := String.ofList (arg.toList.takeWhile (· ≠ '='))
  let explicit := arg.toList.dropWhile (· ≠ '=')
  match decls.find? fun o => name ∈ o.long with
  | some o =>
    match explicit, o.takesValue with
    | [], false => pure (.complete [(o.key, none)])
    | [], true => pure (.pending [] o.key)
    | _ :: value, true => pure (.complete [(o.key, some (String.ofList value))])
    | _ :: _, false => throw (.takesNoValue name)
  | none =>
    if arg.toList.take 2 = ['-', '-'] then throw (.noSuchOption name)
    else matchShort decls arg.toList.tail

/-- A dash with something behind it. -/
def isOption (arg : String) : Bool := arg.toList.head? = some '-' && arg ≠ "-"

def parseArgs (interspersed : Bool) : List String → Except UsageError Parsed
  | [] => pure {}
  | arg :: rest =>
    if arg = "--" then pure { args := rest }
    else if isOption arg then
      match matchOption decls arg with
      | .error error => throw error
      | .ok (.complete values) => do pure ((← parseArgs interspersed rest).after values)
      | .ok (.pending values key) =>
        match rest with
        | [] => throw (.needsArgument arg)
        | value :: rest => do
          pure ((← parseArgs interspersed rest).after (values ++ [(key, some value)]))
    else if interspersed then do
      let parsed ← parseArgs interspersed rest
      pure { parsed with args := arg :: parsed.args }
    else pure { args := arg :: rest }

namespace Parsed

variable (parsed : Parsed)

def flag (key : String) : Bool := parsed.values.any fun p => p.1 = key

/-- The value that was given last. -/
def value? (key : String) : Option String :=
  (parsed.values.filter fun p => p.1 = key).getLast?.bind Prod.snd

end Parsed

/-- A command with these options. Asking for help ends it. -/
def withOptions {α : Type} (interspersed : Bool) (args : List String)
    (body : Parsed → Except UsageError α) : Except UsageError α := do
  let parsed ← parseArgs decls interspersed args
  if parsed.flag "help" then throw .helpShown
  body parsed

/-- `--help`, which every command has. -/
def helpOption : OptionDecl where
  key := "help"
  long := ["--help"]

section Parse

variable {decls} {interspersed : Bool} {arg : String} {rest : List String}
  {values : List (String × Option String)} {key : String}

theorem parseArgs_complete (hopt : isOption arg = true) (hdash : arg ≠ "--")
    (hmatch : matchOption decls arg = .ok (.complete values)) :
    parseArgs decls interspersed (arg :: rest) =
      (·.after values) <$> parseArgs decls interspersed rest := by
  rw [parseArgs, if_neg hdash, if_pos hopt, hmatch]
  cases parseArgs decls interspersed rest <;> rfl

theorem parseArgs_pending (hopt : isOption arg = true) (hdash : arg ≠ "--")
    (hmatch : matchOption decls arg = .ok (.pending values key)) (value : String) :
    parseArgs decls interspersed (arg :: value :: rest) =
      (·.after (values ++ [(key, some value)])) <$> parseArgs decls interspersed rest := by
  rw [parseArgs, if_neg hdash, if_pos hopt, hmatch]
  dsimp only
  cases parseArgs decls interspersed rest <;> rfl

theorem parseArgs_argument (hopt : isOption arg = false) :
    parseArgs decls true (arg :: rest) =
      (fun p => { p with args := arg :: p.args }) <$> parseArgs decls true rest := by
  have hdash : arg ≠ "--" := by
    rintro rfl
    cases hopt
  rw [parseArgs, if_neg hdash, hopt]
  cases parseArgs decls true rest <;> rfl

theorem parseArgs_first (hopt : isOption arg = false) :
    parseArgs decls false (arg :: rest) = .ok { args := arg :: rest } := by
  have hdash : arg ≠ "--" := by
    rintro rfl
    cases hopt
  rw [parseArgs, if_neg hdash, hopt]
  rfl

theorem parseArgs_given (hopt : isOption arg = true) (hdash : arg ≠ "--")
    (hmatch : matchOption decls arg = .ok (.complete values)) (c : Prop) [Decidable c] :
    parseArgs decls interspersed ((if c then [arg] else []) ++ rest) =
      (·.after (if c then values else [])) <$> parseArgs decls interspersed rest := by
  split_ifs
  · exact parseArgs_complete hopt hdash hmatch
  · rw [List.nil_append]
    cases parseArgs decls interspersed rest <;> rfl

theorem parseArgs_givenValue (hopt : isOption arg = true) (hdash : arg ≠ "--")
    (hmatch : matchOption decls arg = .ok (.pending values key)) (c : Prop) [Decidable c]
    (value : String) :
    parseArgs decls interspersed ((if c then [arg, value] else []) ++ rest) =
      (·.after (if c then values ++ [(key, some value)] else [])) <$>
        parseArgs decls interspersed rest := by
  split_ifs
  · exact parseArgs_pending hopt hdash hmatch value
  · rw [List.nil_append]
    cases parseArgs decls interspersed rest <;> rfl

theorem pending_of_matchShort {cs : List Char}
    (h : matchShort decls cs = .ok (.pending values key)) :
    ∃ o ∈ decls, o.takesValue = true ∧ o.key = key := by
  induction cs generalizing values with
  | nil => cases h
  | cons c cs ih =>
    rw [matchShort] at h
    split at h
    · cases h
    · rename_i o ho
      split_ifs at h with hvalue hend
      · obtain ⟨-, rfl⟩ := Setting.pending.inj (Except.ok.inj h)
        exact ⟨o, List.mem_of_find?_eq_some ho, hvalue, rfl⟩
      · cases h
      · obtain ⟨setting, hsetting, h⟩ := bind_eq_ok.mp h
        cases setting with
        | complete others => cases h
        | pending others k =>
          obtain ⟨-, rfl⟩ := Setting.pending.inj (Except.ok.inj h)
          exact ih hsetting

theorem pending_of_matchOption (h : matchOption decls arg = .ok (.pending values key)) :
    ∃ o ∈ decls, o.takesValue = true ∧ o.key = key := by
  dsimp only [matchOption] at h
  split at h
  · rename_i o ho
    split at h
    · cases h
    · rename_i hvalue
      obtain ⟨-, rfl⟩ := Setting.pending.inj (Except.ok.inj h)
      exact ⟨o, List.mem_of_find?_eq_some ho, hvalue, rfl⟩
    · cases h
    · cases h
  · split_ifs at h
    exact pending_of_matchShort h

/-- One option alone leaves no argument. -/
theorem args_of_parseArgs_option {parsed : Parsed} (hopt : isOption arg = true)
    (h : parseArgs decls interspersed [arg] = .ok parsed) : parsed.args = [] := by
  by_cases hdash : arg = "--"
  · rw [parseArgs, if_pos hdash] at h
    obtain rfl := Except.ok.inj h
    rfl
  · rw [parseArgs, if_neg hdash, if_pos hopt] at h
    cases hmatch : matchOption decls arg with
    | error x =>
      rw [hmatch] at h
      cases h
    | ok setting =>
      rw [hmatch] at h
      cases setting with
      | complete values =>
        obtain rfl := Except.ok.inj h
        rfl
      | pending values key => cases h

theorem value?_concat (parsed : Parsed) (key value : String)
    (h : ∃ values, parsed.values = values ++ [(key, some value)]) :
    parsed.value? key = some value := by
  obtain ⟨values, hvalues⟩ := h
  simp [Parsed.value?, hvalues]

end Parse

end MowerRover.CommandLine
