import MowerRover.Cli.Setup
import MowerRover.Effects.Milestones

/-!
# A run of the set-up wizard

A wizard that ends well has reached the Jetson, is let in with the key, has
probed it, and has left the same endpoint in the configuration, where the
commands look for it. A second run writes the file again exactly when the path
of the key does not come back as it was written.
-/

namespace MowerRover.Cli.Setup

open Effects Config Transport
open Zone (YamlFile)

/-- How a mapping is stored: with its keys in some order. -/
structure Dumper where
  dump : List (Yaml × Yaml) → Yaml
  same : ∀ payload, Yaml.Same (.dict payload) (dump payload)

/-- The configuration file, and what was called. -/
structure Desk where
  file : YamlFile
  past : List (Call setupSignature)

/-- Surroundings with a configuration file. A write that fails may leave another file behind; all
other answers are the oracle's. -/
structure Surroundings where
  dumper : Dumper
  torn : YamlFile → YamlFile
  oracle : Oracle setupSignature

/-- The answer of the surroundings and the file after the call. -/
def Surroundings.answer (w : Surroundings) (d : Desk) :
    (op : SetupOp) → setupSignature.Ans op × YamlFile
  | .readConfig => ((w.oracle d.past .readConfig).map fun _ => d.file, d.file)
  | .writeConfig payload =>
    match w.oracle d.past (.writeConfig payload) with
    | .ok () => (.ok (), .document (w.dumper.dump payload))
    | .error x => (.error x, w.torn d.file)
  | op => (w.oracle d.past op, d.file)

def Surroundings.handler (w : Surroundings) : Handler setupSignature Desk Empty := fun op d =>
  ((w.answer d op).1, ⟨(w.answer d op).2, ⟨op, (w.answer d op).1⟩ :: d.past⟩, [])

/-- The calls from which nobody on the network hears, and that leave the file as it is. -/
def IsLocal (key : String) : SetupOp → Prop
  | .run argv => argv = keygenArgv key
  | .shell _ | .writeConfig _ => False
  | _ => True

/-- A program that brings the key to the Jetson. -/
def Deploys (host user : String) : SetupOp → Prop
  | .run argv => ∃ sshCopyId pub, argv = copyIdArgv sshCopyId pub host user
  | .shell command => ∃ ssh pub,
    command = typeCommand ssh pub host user ∨ command = catCommand ssh pub host user
  | _ => False

/-- The vector of a remote probe. -/
def IsProbe (key host user : String) (argv : List String) : Prop :=
  ∃ ssh, (clientOf ssh host user key).buildSshArgv probeArgv = .ok argv

/-- Whoever is spoken to is this Jetson, with this key. -/
def Addresses (laptop : Laptop) (key host user : String) (op : SetupOp) : Prop :=
  IsLocal key op ∨ Deploys host user op ∨ (∃ payload, op = .writeConfig payload) ∨
    ∃ argv, op = .run argv ∧ (argv = pingArgv laptop host ∨
      (∃ ssh, argv = authArgv ssh key host user) ∨ IsProbe key host user argv)

def isWrite : SetupOp → Bool
  | .writeConfig _ => true
  | _ => false

def written (past : List (Call setupSignature)) : Bool := past.any fun c => isWrite c.1

/-- The Jetson has answered. -/
def reached (laptop : Laptop) (host : String) (c : Call setupSignature) : Prop :=
  ∃ r, c = ⟨.run (pingArgv laptop host), r⟩ ∧ succeeded r = true

/-- It lets the key in, or the key has been brought to it. -/
def authorised (key host user : String) (c : Call setupSignature) : Prop :=
  (∃ ssh r, c = ⟨.run (authArgv ssh key host user), r⟩ ∧ succeeded r = true) ∨
  (∃ argv r, c = ⟨.run argv, r⟩ ∧ Deploys host user (.run argv) ∧ succeeded r = true) ∨
  ∃ command r, c = ⟨.shell command, r⟩ ∧ Deploys host user (.shell command) ∧ succeeded r = true

def probed (key host user : String) (c : Call setupSignature) : Prop :=
  ∃ argv r, c = ⟨.run argv, r⟩ ∧ IsProbe key host user argv ∧ succeeded r = true

/-- Where a run stands once it is known which Jetson is meant: what it has come past, and what it
has made of the file. -/
structure At (laptop : Laptop) (key host user : String) (kinds : List (Call setupSignature → Prop))
    (Q : YamlFile → Bool → Prop) (d : Desk) : Prop where
  addressed : ∀ c ∈ d.past, Addresses laptop key host user c.1
  passed : Passed kinds d.past
  file : Q d.file (written d.past)

section Steps

variable {w : Surroundings} {laptop : Laptop} {key host user : String} {op : SetupOp} {d : Desk}
  {kinds : List (Call setupSignature → Prop)} {Q : YamlFile → Bool → Prop}

theorem handler_file (hop : isWrite op = false) : (w.handler op d).2.1.file = d.file := by
  cases op with
  | writeConfig payload => cases hop
  | _ => rfl

theorem handler_write {payload : List (Yaml × Yaml)}
    (h : (w.handler (.writeConfig payload) d).1 = .ok ()) :
    (w.handler (.writeConfig payload) d).2.1.file = .document (w.dumper.dump payload) := by
  simp only [Surroundings.handler, Surroundings.answer] at h ⊢
  cases horacle : w.oracle d.past (.writeConfig payload) with
  | ok a => rfl
  | error x =>
    rw [horacle] at h
    cases h

theorem At.cons (h : At laptop key host user kinds Q d) (hop : Addresses laptop key host user op)
    (hwrite : isWrite op = false) : At laptop key host user kinds Q (w.handler op d).2.1 := by
  constructor
  · intro c hc
    obtain rfl | hc := List.mem_cons.mp hc
    · exact hop
    · exact h.addressed c hc
  · exact h.passed.cons _
  · have hwritten : written (w.handler op d).2.1.past = written d.past := by
      simp [written, Surroundings.handler, hwrite]
    rw [handler_file hwrite, hwritten]
    exact h.file

theorem ask_at (hop : Addresses laptop key host user op) (hwrite : isWrite op = false)
    {E : PyError → Desk → Prop} : Triple w.handler (At laptop key host user kinds Q) (ask op)
      (fun r d => ∀ kind : Call setupSignature → Prop, kind ⟨op, r⟩ →
        At laptop key host user (kind :: kinds) Q d) E := by
  refine Triple.perform fun d hd kind hkind => ?_
  have hcons := hd.cons (w := w) hop hwrite
  exact ⟨hcons.addressed, hd.passed.here hkind, hcons.file⟩

theorem At.tail {kind : Call setupSignature → Prop}
    (h : At laptop key host user (kind :: kinds) Q d) : At laptop key host user kinds Q d :=
  ⟨h.addressed, h.passed.tail, h.file⟩

theorem ask_quiet (op : SetupOp) (hop : Addresses laptop key host user op)
    (hwrite : isWrite op = false) {E : PyError → Desk → Prop} :
    Triple w.handler (At laptop key host user kinds Q) (ask op)
      (fun _ => At laptop key host user kinds Q) E :=
  (ask_at hop hwrite).post fun _ _ hd => (hd (fun _ => True) trivial).tail

/-- A step whose check finds it done, or is followed by the work of the step. -/
theorem run_step {step : SetupStep} {ctx : SetupContext} {P B : Desk → Prop}
    {R : SetupContext → Desk → Prop}
    (hcheck : ctx.force = false → Triple w.handler P (step.check ctx)
      (fun r d => (r.1 = true → R r.2 d) ∧ (r.1 = false → r.2 = ctx ∧ B d)) fun _ _ => True)
    (hforce : ctx.force = true → ∀ d, P d → B d)
    (hexecute : Triple w.handler B (step.execute ctx) R fun _ _ => True) :
    Triple w.handler P (runStep ctx step) R fun _ _ => True := by
  unfold runStep
  split_ifs with hforced
  · exact hexecute.pre (hforce hforced)
  · refine Triple.bind (hcheck (by simpa using hforced)) ?_
    rintro ⟨satisfied, ctx'⟩
    cases satisfied with
    | true => exact Triple.pure fun _ hd => hd.1 rfl
    | false =>
      have hwork : Triple w.handler (fun d => ctx' = ctx ∧ B d) (step.execute ctx') R
          fun _ _ => True := by
        refine Triple.assuming ?_
        rintro rfl
        exact hexecute
      exact hwork.pre fun _ hd => hd.2 rfl

/-- What has been read of the file. -/
def Loads (laptop : Laptop) (f : YamlFile) : Option LaptopConfig → Prop
  | some c => loadLaptopConfig laptop.py laptop.homes laptop.configPath f = .ok c
  | none => ∃ message,
    loadLaptopConfig laptop.py laptop.homes laptop.configPath f = .error (.value message)

theorem tryLoad_triple {P : Desk → Prop} {f : YamlFile} (hkeeps : Keeps w.handler P .readConfig)
    (hfile : ∀ d, P d → d.file = f) :
    Triple w.handler P (tryLoad laptop) (fun r d => Loads laptop f r ∧ P d) fun _ _ => True := by
  have hread : Triple w.handler P (ask .readConfig)
      (fun r d => (∀ file, r = .ok file → file = f) ∧ P d) fun _ _ => True := by
    refine Triple.perform fun d hd => ⟨?_, hkeeps d hd⟩
    intro file hfile'
    obtain ⟨_, -, rfl⟩ := map_eq_ok.mp hfile'
    exact hfile d hd
  refine Triple.bind hread fun r => Triple.bind (Q := fun file d => file = f ∧ P d)
    (Triple.ofExcept (fun file hr d hd => ⟨hd.1 file hr, hd.2⟩) fun _ _ _ _ => trivial) ?_
  intro file
  refine Triple.assuming ?_
  rintro rfl
  split
  case h_1 config hload => exact Triple.pure fun _ hd => ⟨hload, hd⟩
  case h_2 message hload => exact Triple.pure fun _ hd => ⟨⟨message, hload⟩, hd⟩
  case h_3 => exact Triple.throw fun _ _ => trivial

end Steps

/-- Nothing but local calls so far, and the file is as it was. -/
structure AtStart (key : String) (f : YamlFile) (d : Desk) : Prop where
  local_ : ∀ c ∈ d.past, IsLocal key c.1
  file : d.file = f

section Naming

variable {w : Surroundings} {laptop : Laptop} {key host user : String} {op : SetupOp} {d : Desk}
  {f : YamlFile} {ctx ctx' : SetupContext}

theorem isWrite_of_isLocal (h : IsLocal key op) : isWrite op = false := by
  cases op with
  | writeConfig payload => cases h
  | _ => rfl

theorem keeps_start (hop : IsLocal key op) : Keeps w.handler (AtStart key f) op := by
  intro d hd
  constructor
  · intro c hc
    obtain rfl | hc := List.mem_cons.mp hc
    · exact hop
    · exact hd.local_ c hc
  · rw [handler_file (isWrite_of_isLocal hop)]
    exact hd.file

theorem ask_start (op : SetupOp) (hop : IsLocal key op) : Triple w.handler (AtStart key f) (ask op)
    (fun _ => AtStart key f) fun _ _ => True := Triple.perform fun d hd => keeps_start hop d hd

theorem AtStart.at (h : AtStart key f d) (laptop : Laptop) (host user : String) :
    At laptop key host user [] (fun file w => file = f ∧ w = false) d := by
  refine ⟨fun c hc => .inl (h.local_ c hc), trivial, h.file, ?_⟩
  rw [written, List.any_eq_false]
  intro c hc
  simp [isWrite_of_isLocal (h.local_ c hc)]

theorem given_eq_true {text : Option String} : given text = true ↔ ∃ s, text = some s ∧ s ≠ "" := by
  cases text <;> simp [given]

theorem names_eq_ok : ctx.names = .ok (host, user) ↔
    ctx.host = some host ∧ ctx.user = some user ∧ host ≠ "" ∧ user ≠ "" := by
  obtain ⟨chost, cuser, keyPath, force⟩ := ctx
  cases chost with
  | none => simp [SetupContext.names]
  | some h =>
    cases cuser with
    | none => simp [SetupContext.names]
    | some u =>
      simp only [SetupContext.names, Option.some.injEq]
      split_ifs with hgiven
      · rw [pure_eq_ok, Except.ok.injEq, Prod.mk.injEq]
        constructor
        · rintro ⟨rfl, rfl⟩
          exact ⟨rfl, rfl, hgiven⟩
        · rintro ⟨rfl, rfl, -⟩
          exact ⟨rfl, rfl⟩
      · refine iff_of_false (fun h => h) ?_
        rintro ⟨rfl, rfl, hgiven'⟩
        exact hgiven hgiven'

theorem names_of_given (hhost : given ctx.host = true) (huser : given ctx.user = true) :
    ∃ host user, ctx.names = .ok (host, user) := by
  obtain ⟨host, hhost⟩ := given_eq_true.mp hhost
  obtain ⟨user, huser⟩ := given_eq_true.mp huser
  exact ⟨host, user, names_eq_ok.mpr ⟨hhost.1, huser.1, hhost.2, huser.2⟩⟩

/-- The key is there, or it is generated. -/
theorem key_step (hkey : ctx.keyText = key) : Triple w.handler (AtStart key f)
    (runStep ctx ⟨"ssh_key", "SSH key pair exists", keyExists, generateKey laptop⟩)
    (fun ctx' d => ctx' = ctx ∧ AtStart key f d) fun _ _ => True := by
  subst hkey
  refine run_step (B := AtStart ctx.keyText f) (fun _ => ?_) (fun _ _ hd => hd) ?_
  · refine Triple.bind (ask_start (.pathExists ctx.keyText) trivial) fun found => ?_
    exact Triple.pure fun _ hd => ⟨fun _ => ⟨rfl, hd⟩, fun _ => ⟨rfl, hd⟩⟩
  · refine Triple.bind (ask_start (.mkdirParent ctx.keyText) trivial) fun made => ?_
    refine Triple.bind (Q := fun _ => AtStart ctx.keyText f)
      (Triple.ofExcept (fun _ _ _ hd => hd) fun _ _ _ _ => trivial) fun _ => ?_
    refine Triple.bind (ask_start (.run (keygenArgv ctx.keyText)) rfl) fun completed => ?_
    split
    · exact Triple.throw fun _ _ => trivial
    · exact Triple.throw fun _ _ => trivial
    · split_ifs
      · exact Triple.pure fun _ hd => ⟨rfl, hd⟩
      · exact Triple.throw fun _ _ => trivial

/-- Which endpoint a check takes: that of the options, of the environment, of the file. -/
def Chosen (laptop : Laptop) (f : YamlFile) (ctx ctx' : SetupContext) : Prop :=
  if given ctx.host && given ctx.user then ctx' = ctx
  else if given (laptop.env "MOWER_JETSON_HOST") && given (laptop.env "MOWER_JETSON_USER") then
    ctx' = { ctx with
      host := laptop.env "MOWER_JETSON_HOST", user := laptop.env "MOWER_JETSON_USER" }
  else ∃ r, Loads laptop f r ∧ ∀ e, r.bind (·.jetson) = some e → e.host ≠ "" → e.user ≠ "" →
    ctx' = { ctx with host := some e.host, user := some e.user }

/-- Nothing of the three names both. -/
def Nowhere (laptop : Laptop) (f : YamlFile) (ctx : SetupContext) : Prop :=
  (given ctx.host && given ctx.user) = false ∧
  (given (laptop.env "MOWER_JETSON_HOST") && given (laptop.env "MOWER_JETSON_USER")) = false ∧
  ∃ r, Loads laptop f r ∧ ∀ e, r.bind (·.jetson) = some e → ¬ (e.host ≠ "" ∧ e.user ≠ "")

theorem Nowhere.chosen (h : Nowhere laptop f ctx) (ctx' : SetupContext) :
    Chosen laptop f ctx ctx' := by
  obtain ⟨hoptions, henv, r, hr, hnone⟩ := h
  rw [Chosen, hoptions, henv]
  exact ⟨r, hr, fun e he hhost huser => absurd ⟨hhost, huser⟩ (hnone e he)⟩

theorem orPrompt_start {value : Option String} {text default : String} (hdefault : default ≠ "") :
    Triple w.handler (AtStart key f) (orPrompt value text default)
      (fun r d => given r = true ∧ AtStart key f d) fun _ _ => True := by
  unfold orPrompt
  split_ifs with hvalue
  · exact Triple.pure fun _ hd => ⟨hvalue, hd⟩
  · refine Triple.bind (Q := fun typed d => typed ≠ "" ∧ AtStart key f d) ?_ fun typed => ?_
    · refine Triple.bind (ask_start (.prompt text default) trivial) fun answer => ?_
      refine Triple.bind (Q := fun _ => AtStart key f)
        (Triple.ofExcept (fun _ _ _ hd => hd) fun _ _ _ _ => trivial) fun typed => ?_
      refine Triple.pure fun _ hd => ⟨?_, hd⟩
      split_ifs with htyped
      · exact hdefault
      · exact htyped
    · exact Triple.pure fun _ hd => ⟨given_eq_true.mpr ⟨typed, rfl, hd.1⟩, hd.2⟩

/-- After the second step both names are known; the other settings are as they were. -/
structure Named (laptop : Laptop) (f : YamlFile) (ctx ctx' : SetupContext) (host user : String) :
    Prop where
  names : ctx'.names = .ok (host, user)
  keyPath : ctx'.keyPath = ctx.keyPath
  force : ctx'.force = ctx.force
  chosen : ctx.force = false → Chosen laptop f ctx ctx'

theorem endpointConfigured_start :
    Triple w.handler (AtStart key f) (endpointConfigured laptop ctx)
      (fun r d => (r.1 = true → (∃ host user, Named laptop f ctx r.2 host user) ∧ AtStart key f d) ∧
        (r.1 = false → r.2 = ctx ∧ Nowhere laptop f ctx ∧ AtStart key f d)) fun _ _ => True := by
  dsimp only [endpointConfigured]
  split_ifs with hoptions henv
  · obtain ⟨hhost, huser⟩ := Bool.and_eq_true_iff.mp hoptions
    obtain ⟨host, user, hnames⟩ := names_of_given hhost huser
    refine Triple.pure fun _ hd =>
      ⟨fun _ => ⟨⟨host, user, hnames, rfl, rfl, fun _ => ?_⟩, hd⟩, by simp⟩
    rw [Chosen, if_pos hoptions]
  · obtain ⟨hhost, huser⟩ := Bool.and_eq_true_iff.mp henv
    obtain ⟨host, user, hnames⟩ : ∃ host user, SetupContext.names { ctx with
        host := laptop.env "MOWER_JETSON_HOST", user := laptop.env "MOWER_JETSON_USER" } =
          .ok (host, user) := names_of_given hhost huser
    refine Triple.pure fun _ hd =>
      ⟨fun _ => ⟨⟨host, user, hnames, rfl, rfl, fun _ => ?_⟩, hd⟩, by simp⟩
    rw [Chosen, if_neg hoptions, if_pos henv]
  · refine Triple.bind (tryLoad_triple (keeps_start trivial)
      fun _ hd => hd.file) fun r => Triple.assuming fun hr => ?_
    rw [Bool.not_eq_true] at hoptions henv
    split
    case h_1 e he =>
      split_ifs with hnamed
      · refine Triple.pure fun _ hd => ⟨fun _ => ⟨⟨e.host, e.user, ?_, rfl, rfl, fun _ => ?_⟩, hd⟩,
          by simp⟩
        · exact names_eq_ok.mpr ⟨rfl, rfl, hnamed⟩
        · rw [Chosen, hoptions, henv]
          refine ⟨r, hr, fun e' he' _ _ => ?_⟩
          obtain rfl : e = e' := Option.some.inj (he.symm.trans he')
          rfl
      · refine Triple.pure fun _ hd => ⟨by simp, fun _ => ⟨rfl, ⟨hoptions, henv, r, hr, ?_⟩, hd⟩⟩
        intro e' he'
        obtain rfl : e = e' := Option.some.inj (he.symm.trans he')
        exact hnamed
    case h_2 he =>
      refine Triple.pure fun _ hd => ⟨by simp, fun _ => ⟨rfl, ⟨hoptions, henv, r, hr, ?_⟩, hd⟩⟩
      intro e he'
      rw [he] at he'
      cases he'

theorem endpoint_step : Triple w.handler (AtStart key f)
    (runStep ctx ⟨"endpoint", "Jetson host/user configured", endpointConfigured laptop,
      promptEndpoint⟩)
    (fun ctx' d => (∃ host user, Named laptop f ctx ctx' host user) ∧ AtStart key f d)
      fun _ _ => True := by
  refine run_step (B := fun d => (ctx.force = false → Nowhere laptop f ctx) ∧ AtStart key f d)
    (fun _ => ?_) (fun hforce d hd => ⟨by simp [hforce], hd⟩) ?_
  · exact endpointConfigured_start.post fun r d hd =>
      ⟨hd.1, fun hr => ⟨(hd.2 hr).1, fun _ => (hd.2 hr).2.1, (hd.2 hr).2.2⟩⟩
  · refine Triple.assuming fun hnowhere => ?_
    refine Triple.bind (orPrompt_start (by decide)) fun host => Triple.assuming fun hhost => ?_
    refine Triple.bind (orPrompt_start (by decide)) fun user => Triple.assuming fun huser => ?_
    obtain ⟨h, u, hnames⟩ : ∃ h u, SetupContext.names { ctx with host := host, user := user } =
        .ok (h, u) := names_of_given hhost huser
    exact Triple.pure fun _ hd =>
      ⟨⟨h, u, hnames, rfl, rfl, fun hforce => (hnowhere hforce).chosen _⟩, hd⟩

end Naming

section Working

variable {w : Surroundings} {laptop : Laptop} {host user : String} {f : YamlFile}
  {ctx : SetupContext} {kinds : List (Call setupSignature → Prop)} {Q : YamlFile → Bool → Prop}

theorem run_checked {name description : String} {check : SetupContext → SetupM Bool}
    {execute : SetupContext → SetupM SetupContext} {P B R : Desk → Prop}
    (hcheck : Triple w.handler P (check ctx)
      (fun ok d => (ok = true → R d) ∧ (ok = false → B d)) fun _ _ => True)
    (hforce : ctx.force = true → ∀ d, P d → B d)
    (hexecute : Triple w.handler B (execute ctx) (fun ctx' d => ctx' = ctx ∧ R d) fun _ _ => True) :
    Triple w.handler P (runStep ctx ⟨name, description, pureCheck check, execute⟩)
      (fun ctx' d => ctx' = ctx ∧ R d) fun _ _ => True := by
  refine run_step (fun _ => Triple.bind hcheck fun ok => ?_) hforce hexecute
  exact Triple.pure fun _ hd => ⟨fun hok => ⟨rfl, hd.1 hok⟩, fun hok => ⟨rfl, hd.2 hok⟩⟩

theorem withNames {α : Type} (hnames : ctx.names = .ok (host, user))
    (k : String × String → SetupM α) : (Program.ofExcept ctx.names >>= k) = k (host, user) := by
  rw [hnames]
  rfl

theorem addresses_run {key : String} {argv : List String} (h : argv = pingArgv laptop host ∨
    (∃ ssh, argv = authArgv ssh key host user) ∨ IsProbe key host user argv) :
    Addresses laptop key host user (.run argv) := .inr (.inr (.inr ⟨argv, rfl, h⟩))

theorem pingOk_at (hhost : ctx.host = some host) :
    Triple w.handler (At laptop ctx.keyText host user kinds Q) (pingOk laptop ctx)
      (fun ok d =>
        (ok = true → At laptop ctx.keyText host user (reached laptop host :: kinds) Q d) ∧
        (ok = false → At laptop ctx.keyText host user kinds Q d)) fun _ _ => True := by
  unfold pingOk
  rw [hhost]
  refine Triple.bind (ask_at (addresses_run (.inl rfl)) rfl) fun completed => ?_
  exact Triple.pure fun _ hd =>
    ⟨fun hok => hd _ ⟨completed, rfl, hok⟩, fun _ => (hd (fun _ => True) trivial).tail⟩

theorem ping_step (hhost : ctx.host = some host) :
    Triple w.handler (At laptop ctx.keyText host user kinds Q)
      (runStep ctx ⟨"connectivity", "Network connectivity to Jetson", pureCheck (pingOk laptop),
        checkConnectivity laptop⟩)
      (fun ctx' d => ctx' = ctx ∧
        At laptop ctx.keyText host user (reached laptop host :: kinds) Q d) fun _ _ => True := by
  refine run_checked (pingOk_at hhost) (fun _ _ hd => hd) ?_
  refine Triple.bind (pingOk_at hhost) fun ok => ?_
  cases ok with
  | true => exact Triple.pure fun _ hd => ⟨rfl, hd.1 rfl⟩
  | false => exact Triple.throw fun _ _ => trivial

theorem keyAuthWorks_at (hnames : ctx.names = .ok (host, user)) :
    Triple w.handler (At laptop ctx.keyText host user kinds Q) (keyAuthWorks ctx)
      (fun ok d =>
        (ok = true →
          At laptop ctx.keyText host user (authorised ctx.keyText host user :: kinds) Q d) ∧
        (ok = false → At laptop ctx.keyText host user kinds Q d)) fun _ _ => True := by
  rw [keyAuthWorks, withNames hnames]
  refine Triple.bind (ask_quiet (.which "ssh") (.inl trivial) rfl) fun found => ?_
  cases found with
  | none => exact Triple.pure fun _ hd => ⟨by simp, fun _ => hd⟩
  | some ssh =>
    refine Triple.bind (ask_at (addresses_run (.inr (.inl ⟨ssh, rfl⟩))) rfl) fun completed => ?_
    exact Triple.pure fun _ hd => ⟨fun hok => hd _ (.inl ⟨ssh, completed, rfl, hok⟩),
      fun _ => (hd (fun _ => True) trivial).tail⟩

theorem succeeded_of_orExit {completed : Completed} (h : orExit completed = .ok ()) :
    succeeded completed = true := by
  cases completed with
  | exited returncode stdout stderr =>
    simp only [orExit] at h
    split_ifs at h with hcode
    simpa [succeeded] using hcode
  | _ => cases h

theorem bringKey_at (ssh pub : String) :
    Triple w.handler (At laptop ctx.keyText host user kinds Q) (bringKey laptop ssh pub host user)
      (fun completed d => succeeded completed = true →
        At laptop ctx.keyText host user (authorised ctx.keyText host user :: kinds) Q d)
      fun _ _ => True := by
  have hshell : ∀ command, Deploys host user (.shell command) →
      Triple w.handler (At laptop ctx.keyText host user kinds Q) (ask (.shell command))
        (fun completed d => succeeded completed = true →
          At laptop ctx.keyText host user (authorised ctx.keyText host user :: kinds) Q d)
        fun _ _ => True := fun command hcommand =>
    (ask_at (.inr (.inl hcommand)) rfl).post fun completed _ hd hok =>
      hd _ (.inr (.inr ⟨command, completed, rfl, hcommand, hok⟩))
  unfold bringKey
  split_ifs
  · exact hshell _ ⟨ssh, pub, .inl rfl⟩
  · refine Triple.bind (ask_quiet (.which "ssh-copy-id") (.inl trivial) rfl) fun found => ?_
    cases found with
    | none => exact hshell _ ⟨ssh, pub, .inr rfl⟩
    | some sshCopyId =>
      have hdeploys : Deploys host user (.run (copyIdArgv sshCopyId pub host user)) :=
        ⟨sshCopyId, pub, rfl⟩
      exact (ask_at (.inr (.inl hdeploys)) rfl).post fun completed _ hd hok =>
        hd _ (.inr (.inl ⟨_, completed, rfl, hdeploys, hok⟩))

theorem key_deployed_step (hnames : ctx.names = .ok (host, user)) :
    Triple w.handler (At laptop ctx.keyText host user kinds Q)
      (runStep ctx ⟨"key_deployed", "SSH key deployed to Jetson", pureCheck keyAuthWorks,
        deployKey laptop⟩)
      (fun ctx' d => ctx' = ctx ∧
        At laptop ctx.keyText host user (authorised ctx.keyText host user :: kinds) Q d)
      fun _ _ => True := by
  refine run_checked (keyAuthWorks_at hnames) (fun _ _ hd => hd) ?_
  rw [deployKey, withNames hnames]
  refine Triple.bind (Q := fun _ => At laptop ctx.keyText host user kinds Q)
    (Triple.ofExcept (fun _ _ _ hd => hd) fun _ _ _ _ => trivial) fun pub => ?_
  refine Triple.bind (ask_quiet (.pathExists pub) (.inl trivial) rfl) fun found => ?_
  cases found with
  | false => exact Triple.throw fun _ _ => trivial
  | true =>
    refine Triple.bind (ask_quiet (.which "ssh") (.inl trivial) rfl) fun ssh => ?_
    cases ssh with
    | none => exact Triple.throw fun _ _ => trivial
    | some ssh =>
      refine Triple.bind (bringKey_at ssh pub) fun completed => ?_
      refine Triple.bind (Q := fun _ =>
        At laptop ctx.keyText host user (authorised ctx.keyText host user :: kinds) Q)
        (Triple.ofExcept (fun _ hok _ hd => hd (succeeded_of_orExit hok)) fun _ _ _ _ => trivial)
        fun _ => ?_
      exact Triple.pure fun _ hd => ⟨rfl, hd⟩

/-- The file has this endpoint, at whatever port. -/
def Matches (laptop : Laptop) (f : YamlFile) (host user : String) (key : PosixPath) : Prop :=
  ∃ c e, loadLaptopConfig laptop.py laptop.homes laptop.configPath f = .ok c ∧
    c.jetson = some e ∧ e.host = host ∧ e.user = user ∧ e.keyPath = some key

/-- The endpoint has been written into what could be read of the file. -/
def Written (laptop : Laptop) (f file : YamlFile) (host user : String) (key : PosixPath) : Prop :=
  ∃ r saved, Loads laptop f r ∧ file = .document saved ∧
    saveLaptopConfig (withEndpoint (r.getD {}) host user key) saved

/-- The file after the fifth step, and whether it was written. -/
def Configured (laptop : Laptop) (f : YamlFile) (ctx : SetupContext) (host user : String)
    (file : YamlFile) (w : Bool) : Prop :=
  (w = false ∧ file = f ∧ Matches laptop f host user ctx.keyPath) ∨
  (w = true ∧ (ctx.force = false → ¬ Matches laptop f host user ctx.keyPath) ∧
    Written laptop f file host user ctx.keyPath)

/-- The file is as it was found. -/
def Unwritten (f file : YamlFile) (w : Bool) : Prop := file = f ∧ w = false

theorem tryLoad_at : Triple w.handler (At laptop ctx.keyText host user kinds (Unwritten f))
    (tryLoad laptop)
    (fun r d => Loads laptop f r ∧ At laptop ctx.keyText host user kinds (Unwritten f) d)
    fun _ _ => True :=
  tryLoad_triple (fun _ hd => hd.cons (.inl trivial) rfl) fun _ hd => hd.file.1

theorem configExists_at (hnames : ctx.names = .ok (host, user)) :
    Triple w.handler (At laptop ctx.keyText host user kinds (Unwritten f)) (configExists laptop ctx)
      (fun ok d => (ok = true ↔ Matches laptop f host user ctx.keyPath) ∧
        At laptop ctx.keyText host user kinds (Unwritten f) d) fun _ _ => True := by
  rw [configExists, withNames hnames]
  refine Triple.bind tryLoad_at fun r => Triple.assuming fun hr => ?_
  cases r with
  | none =>
    obtain ⟨message, hload⟩ := hr
    refine Triple.pure fun _ hd => ⟨iff_of_false (by simp) ?_, hd⟩
    rintro ⟨c, e, hc, -⟩
    rw [hload] at hc
    cases hc
  | some c =>
    have hload : loadLaptopConfig laptop.py laptop.homes laptop.configPath f = .ok c := hr
    cases hjetson : c.jetson with
    | none =>
      simp only [Option.bind_some, hjetson]
      refine Triple.pure fun _ hd => ⟨iff_of_false (by simp) ?_, hd⟩
      rintro ⟨c', e, hc, he, -⟩
      obtain rfl := Except.ok.inj (hload.symm.trans hc)
      rw [hjetson] at he
      cases he
    | some e =>
      simp only [Option.bind_some, hjetson]
      refine Triple.pure fun _ hd => ⟨?_, hd⟩
      rw [decide_eq_true_eq]
      constructor
      · rintro ⟨hhost, huser, hkey⟩
        exact ⟨c, e, hload, hjetson, hhost, huser, hkey⟩
      · rintro ⟨c', e', hc, he, hmatch⟩
        obtain rfl := Except.ok.inj (hload.symm.trans hc)
        obtain rfl := Option.some.inj (hjetson.symm.trans he)
        exact hmatch

theorem config_step (hnames : ctx.names = .ok (host, user)) :
    Triple w.handler (At laptop ctx.keyText host user kinds (Unwritten f))
      (runStep ctx ⟨"config", "laptop.yaml written with endpoint", pureCheck (configExists laptop),
        writeConfig laptop⟩)
      (fun ctx' d => ctx' = ctx ∧
        At laptop ctx.keyText host user kinds (Configured laptop f ctx host user) d)
      fun _ _ => True := by
  refine run_checked (B := fun d =>
      (ctx.force = false → ¬ Matches laptop f host user ctx.keyPath) ∧
        At laptop ctx.keyText host user kinds (Unwritten f) d)
    ((configExists_at hnames).post fun ok d hd => ⟨fun hok => ?_, fun hok => ⟨fun _ => ?_, hd.2⟩⟩)
    (fun hforce _ hd => ⟨by simp [hforce], hd⟩) ?_
  · exact ⟨hd.2.addressed, hd.2.passed, .inl ⟨hd.2.file.2, hd.2.file.1, hd.1.mp hok⟩⟩
  · intro hmatches
    rw [hd.1.mpr hmatches] at hok
    cases hok
  · refine Triple.assuming fun hunmatched => ?_
    rw [writeConfig, withNames hnames]
    refine Triple.bind tryLoad_at fun r => Triple.assuming fun hr => ?_
    refine Triple.bind (Q := fun answer d => answer = .ok () →
        At laptop ctx.keyText host user kinds (Configured laptop f ctx host user) d)
      (Triple.perform fun d hd hanswer => ?_) fun answer => ?_
    · refine ⟨fun c hc => ?_, hd.passed.cons _, .inr ⟨?_, hunmatched, r, _, hr,
        handler_write hanswer, w.dumper.same _⟩⟩
      · obtain rfl | hc := List.mem_cons.mp hc
        · exact .inr (.inr (.inl ⟨_, rfl⟩))
        · exact hd.addressed c hc
      · simp [Surroundings.handler, written, isWrite]
    · refine Triple.bind (Q := fun _ =>
        At laptop ctx.keyText host user kinds (Configured laptop f ctx host user))
        (Triple.ofExcept (fun _ hok _ hd => hd hok) fun _ _ _ _ => trivial) fun _ => ?_
      exact Triple.pure fun _ hd => ⟨rfl, hd⟩

theorem tried {α : Type} {p : SetupM α} {P : Desk → Prop} {R : α → Desk → Prop}
    {E : PyError → Desk → Prop} (hp : Triple w.handler P p R E) :
    Triple w.handler P p.attempt
      (fun x d => (∀ a, x = .ok a → R a d) ∧ ∀ e, x = .error e → E e d) fun _ _ => True := by
  intro d hd
  rw [Program.run_attempt]
  refine ⟨fun x hx => ?_, fun _ _ => trivial⟩
  obtain rfl := Except.ok.inj hx
  exact hp d hd

theorem remoteProbe_at (hnames : ctx.names = .ok (host, user)) :
    Triple w.handler (At laptop ctx.keyText host user kinds Q) (remoteProbe ctx)
      (fun result d => At laptop ctx.keyText host user kinds Q d ∧ (result.ok = true →
        At laptop ctx.keyText host user (probed ctx.keyText host user :: kinds) Q d))
      fun _ => At laptop ctx.keyText host user kinds Q := by
  rw [remoteProbe, withNames hnames]
  refine Triple.bind (ask_quiet (.which "ssh") (.inl trivial) rfl) fun ssh => ?_
  refine Triple.bind (ask_quiet (.which "scp") (.inl trivial) rfl) fun _ => Triple.mapOps ?_
  unfold JetsonClient.run
  refine Triple.bind (Q := fun argv d =>
    (clientOf ssh host user ctx.keyText).buildSshArgv probeArgv = .ok argv ∧
      At laptop ctx.keyText host user kinds Q d)
    (Triple.ofExcept (fun argv hargv _ hd => ⟨hargv, hd⟩) fun _ _ _ hd => hd) fun argv => ?_
  refine Triple.assuming fun hargv => ?_
  have hprobe : IsProbe ctx.keyText host user argv := ⟨ssh, hargv⟩
  refine Triple.bind (Q := fun completed d => At laptop ctx.keyText host user kinds Q d ∧
      (succeeded completed = true →
        At laptop ctx.keyText host user (probed ctx.keyText host user :: kinds) Q d))
    (Triple.perform fun d hd => ?_) fun completed => ?_
  · have hcons := hd.cons (w := w) (addresses_run (.inr (.inr hprobe))) rfl
    refine ⟨hcons, fun hok => ⟨hcons.addressed, hd.passed.here ?_, hcons.file⟩⟩
    exact ⟨argv, _, rfl, hprobe, hok⟩
  · cases completed with
    | fileNotFound message => exact Triple.throw fun _ hd => hd.1
    | timeoutExpired => exact Triple.throw fun _ hd => hd.1
    | exited returncode stdout stderr =>
      refine Triple.pure fun _ hd => ⟨hd.1, fun hok => hd.2 ?_⟩
      simpa [succeeded, Transport.SshResult.ok] using hok

theorem probe_step (hnames : ctx.names = .ok (host, user)) :
    Triple w.handler (At laptop ctx.keyText host user kinds Q)
      (runStep ctx ⟨"verify", "Remote probe passes", pureCheck remoteProbeOk, runRemoteProbe⟩)
      (fun ctx' d => ctx' = ctx ∧
        At laptop ctx.keyText host user (probed ctx.keyText host user :: kinds) Q d)
      fun _ _ => True := by
  refine run_checked (B := At laptop ctx.keyText host user kinds Q) ?_ (fun _ _ hd => hd) ?_
  · refine Triple.bind (tried (remoteProbe_at hnames)) fun answer => ?_
    split
    · exact Triple.pure fun _ hd => ⟨by simp, fun _ => hd.2 _ rfl⟩
    · exact Triple.throw fun _ _ => trivial
    case h_3 result =>
      split_ifs with hok
      · exact Triple.pure fun _ hd => ⟨by simp, fun _ => (hd.1 _ rfl).1⟩
      · have hok : result.ok = true := by simpa using hok
        split
        · exact Triple.pure fun _ hd => ⟨by simp, fun _ => (hd.1 _ rfl).1⟩
        · exact Triple.ofExcept (fun _ _ _ hd =>
            ⟨fun _ => (hd.1 _ rfl).2 hok, fun _ => (hd.1 _ rfl).1⟩) fun _ _ _ _ => trivial
  · refine Triple.bind (tried (remoteProbe_at hnames)) fun answer => ?_
    split
    · exact Triple.throw fun _ _ => trivial
    · exact Triple.throw fun _ _ => trivial
    case h_3 result =>
      split_ifs with hok
      · exact Triple.throw fun _ _ => trivial
      · have hok : result.ok = true := by simpa using hok
        split
        · exact Triple.throw fun _ _ => trivial
        · refine Triple.bind (Q := fun _ =>
            At laptop ctx.keyText host user (probed ctx.keyText host user :: kinds) Q)
            (Triple.ofExcept (fun _ _ _ hd => (hd.1 _ rfl).2 hok) fun _ _ _ _ => trivial)
            fun _ => ?_
          exact Triple.pure fun _ hd => ⟨rfl, hd⟩

end Working

section Runs

variable {w w' : Surroundings} {laptop : Laptop} {host user : String} {f file : YamlFile} {b : Bool}
  {ctx : SetupContext} {opts : SetupOptions}

/-- What a run that ends well has come past, the latest first. -/
def milestones (laptop : Laptop) (key host user : String) : List (Call setupSignature → Prop) :=
  [probed key host user, authorised key host user, reached laptop host]

theorem setupSteps_triple : Triple w.handler (AtStart ctx.keyText f)
    ((setupSteps laptop).foldlM runStep ctx)
    (fun ctx' d => ∃ host user, Named laptop f ctx ctx' host user ∧
      At laptop ctx.keyText host user (milestones laptop ctx.keyText host user)
        (Configured laptop f ctx' host user) d) fun _ _ => True := by
  simp only [setupSteps, List.foldlM_cons, List.foldlM_nil]
  refine Triple.bind (key_step rfl) fun ctx' => Triple.assuming ?_
  rintro rfl
  refine Triple.bind endpoint_step fun ctx => Triple.assuming ?_
  rintro ⟨host, user, hnamed⟩
  have hnames := hnamed.names
  have hkey : ctx.keyText = ctx'.keyText :=
    congrArg (fun p : PosixPath => String.ofList p.text) hnamed.keyPath
  obtain ⟨hhost, -⟩ := names_eq_ok.mp hnames
  rw [← hkey]
  refine Triple.pre ?_ fun d hd => hd.at laptop host user
  refine Triple.bind (ping_step hhost) fun c => Triple.assuming ?_
  rintro rfl
  refine Triple.bind (key_deployed_step hnames) fun c' => Triple.assuming ?_
  rintro rfl
  refine Triple.bind (config_step hnames) fun c' => Triple.assuming ?_
  rintro rfl
  refine Triple.bind (probe_step hnames) fun c' => Triple.assuming ?_
  rintro rfl
  exact Triple.pure fun d hd => ⟨host, user, hnamed, hd⟩

theorem setupCommand_end (h : ((setupCommand laptop opts).run w.handler ⟨f, []⟩).result = .ok ()) :
    ∃ ctx' host user, Named laptop f (opts.context laptop) ctx' host user ∧
      At laptop (opts.context laptop).keyText host user
        (milestones laptop (opts.context laptop).keyText host user)
        (Configured laptop f ctx' host user)
        ((setupCommand laptop opts).run w.handler ⟨f, []⟩).state := by
  have hsteps : Triple w.handler (AtStart (opts.context laptop).keyText f)
      (setupCommand laptop opts)
      (fun _ d => ∃ ctx' host user, Named laptop f (opts.context laptop) ctx' host user ∧
        At laptop (opts.context laptop).keyText host user
          (milestones laptop (opts.context laptop).keyText host user)
          (Configured laptop f ctx' host user) d) fun _ _ => True :=
    Triple.bind setupSteps_triple fun ctx' => Triple.pure fun d hd => ⟨ctx', hd⟩
  have hstart : AtStart (opts.context laptop).keyText f ⟨f, []⟩ := ⟨by simp, rfl⟩
  exact (hsteps _ hstart).1 () h

theorem Configured.loads (h : Configured laptop f ctx host user file b) :
    ∃ r, Loads laptop f r := by
  obtain ⟨-, -, c, e, hload, -⟩ | ⟨-, -, r, saved, hr, -⟩ := h
  · exact ⟨some c, hload⟩
  · exact ⟨r, hr⟩

theorem Loads.eq_some {r : Option LaptopConfig} {c : LaptopConfig} (h : Loads laptop f r)
    (hc : loadLaptopConfig laptop.py laptop.homes laptop.configPath f = .ok c) : r = some c := by
  cases r with
  | none =>
    obtain ⟨message, hmessage⟩ := h
    rw [hc] at hmessage
    cases hmessage
  | some c' => exact congrArg some (Except.ok.inj (h.symm.trans hc))

theorem Loads.keepsOthers {r : Option LaptopConfig} (h : Loads laptop f r) :
    (r.getD {}).KeepsOthers := by
  cases r with
  | none =>
    intro key hkey
    cases hkey
  | some c => exact loadLaptopConfig_keepsOthers h

theorem endpointOf_port (host user : String) (key : PosixPath) :
    0 < (endpointOf host user key).port.toInt ∧ (endpointOf host user key).port.toInt ≤ 65535 := by
  simp [endpointOf, PyInt.toInt]

theorem load_saved {r : Option LaptopConfig} {saved : Yaml} {key : PosixPath}
    (hr : Loads laptop f r)
    (hsaved : saveLaptopConfig (withEndpoint (r.getD {}) host user key) saved) :
    ∃ extra : Yaml.Mapping, Yaml.Same (.dict (r.getD {}).extra.entries) (.dict extra.entries) ∧
      loadLaptopConfig laptop.py laptop.homes laptop.configPath (.document saved) =
        ((endpointOf host user key).expanded laptop.homes).map fun e => ⟨some e, extra⟩ :=
  loadLaptopConfig_save laptop.configPath (c := withEndpoint (r.getD {}) host user key) rfl
    (endpointOf_port host user key) hr.keepsOthers hsaved

/-- Whatever has been read is the endpoint, with its key expanded. -/
theorem Configured.endpoint (h : Configured laptop f ctx host user file b)
    {r : Option LaptopConfig} (hr : Loads laptop file r) :
    ∃ c e key, r = some c ∧ c.jetson = some e ∧ e.host = host ∧ e.user = user ∧
      e.keyPath = some key ∧ ctx.keyPath.expanduser laptop.homes = .ok key := by
  obtain ⟨-, rfl, c, e, hload, hjetson, hhost, huser, hkey⟩ |
    ⟨-, -, r₀, saved, hr₀, rfl, hsaved⟩ := h
  · obtain rfl := hr.eq_some hload
    exact ⟨c, e, _, rfl, hjetson, hhost, huser, hkey, loadLaptopConfig_expanded hload hjetson hkey⟩
  · obtain ⟨extra, -, hload⟩ := load_saved hr₀ hsaved
    rw [JetsonEndpoint.expanded, endpointOf] at hload
    cases hkey : ctx.keyPath.expanduser laptop.homes with
    | error x =>
      obtain rfl := expanduser_error hkey
      simp only [hkey] at hload
      cases r with
      | none =>
        obtain ⟨message, hmessage⟩ := hr
        have hfails := hload.symm.trans hmessage
        cases hfails
      | some c' =>
        have hfails := hload.symm.trans hr
        cases hfails
    | ok key =>
      simp only [hkey] at hload
      obtain rfl := hr.eq_some hload
      exact ⟨_, _, key, rfl, rfl, rfl, rfl, rfl, rfl⟩

/-- The wizard has done what it is for: the Jetson that it has reached, entered and probed is the
one that commands without options take from the file, and no other has been spoken to. Other keys
of the file are as they were. -/
structure SetUp (laptop : Laptop) (key : PosixPath) (before : YamlFile) (host user : String)
    (d : Desk) : Prop where
  named : host ≠ "" ∧ user ≠ ""
  addressed : ∀ c ∈ d.past, Addresses laptop (String.ofList key.text) host user c.1
  passed : Passed (milestones laptop (String.ofList key.text) host user) d.past
  resolves : ∃ port, ∀ env, Unset env →
    resolveEndpoint laptop.py laptop.homes env laptop.configPath {} d.file =
      (⟨host, user, port, some key⟩ : Config.JetsonEndpoint).expanded laptop.homes
  kept : ∀ c c', loadLaptopConfig laptop.py laptop.homes laptop.configPath before = .ok c →
    loadLaptopConfig laptop.py laptop.homes laptop.configPath d.file = .ok c' →
    Yaml.Same (.dict c.extra.entries) (.dict c'.extra.entries)

theorem Configured.resolves (h : Configured laptop f ctx host user file b) :
    ∃ port, ∀ env, Unset env →
      resolveEndpoint laptop.py laptop.homes env laptop.configPath {} file =
        (⟨host, user, port, some ctx.keyPath⟩ : Config.JetsonEndpoint).expanded laptop.homes := by
  obtain ⟨-, rfl, c, e, hload, hjetson, rfl, rfl, hkey⟩ | ⟨-, -, r, saved, hr, rfl, hsaved⟩ := h
  · refine ⟨e.port, fun env henv => ?_⟩
    have hexpanded := loadLaptopConfig_expanded hload hjetson hkey
    rw [resolveEndpoint_eq henv hload hjetson, JetsonEndpoint.expanded]
    simp only [hexpanded]
    have he : e = ⟨e.host, e.user, e.port, some ctx.keyPath⟩ := by rw [← hkey]
    exact congrArg Except.ok he
  · exact ⟨.int 22, fun env henv => resolveEndpoint_save henv
      (c := withEndpoint (r.getD {}) host user ctx.keyPath) rfl
      (endpointOf_port host user ctx.keyPath) hr.keepsOthers hsaved⟩

theorem Configured.kept (h : Configured laptop f ctx host user file b) {c c' : LaptopConfig}
    (hc : loadLaptopConfig laptop.py laptop.homes laptop.configPath f = .ok c)
    (hc' : loadLaptopConfig laptop.py laptop.homes laptop.configPath file = .ok c') :
    Yaml.Same (.dict c.extra.entries) (.dict c'.extra.entries) := by
  obtain ⟨-, rfl, -⟩ | ⟨-, -, r, saved, hr, rfl, hsaved⟩ := h
  · obtain rfl := Except.ok.inj (hc.symm.trans hc')
    exact .refl _
  · obtain ⟨extra, hextra, hload⟩ := load_saved hr hsaved
    rw [hload] at hc'
    obtain ⟨e, -, rfl⟩ := map_eq_ok.mp hc'
    obtain rfl := hr.eq_some hc
    exact hextra

theorem setUp_of_end {ctx' : SetupContext} {d : Desk}
    (hnamed : Named laptop f (opts.context laptop) ctx' host user)
    (hat : At laptop (opts.context laptop).keyText host user
      (milestones laptop (opts.context laptop).keyText host user)
      (Configured laptop f ctx' host user) d) :
    SetUp laptop (opts.context laptop).keyPath f host user d := by
  obtain ⟨-, -, hgiven⟩ := names_eq_ok.mp hnamed.names
  obtain ⟨port, hresolves⟩ := hat.file.resolves
  rw [hnamed.keyPath] at hresolves
  exact ⟨hgiven, hat.addressed, hat.passed, ⟨port, hresolves⟩, fun _ _ => hat.file.kept⟩

/-- A wizard that ends well has set up the Jetson that it has spoken to. -/
theorem setupCommand_resolves
    (h : ((setupCommand laptop opts).run w.handler ⟨f, []⟩).result = .ok ()) :
    ∃ host user, SetUp laptop (opts.context laptop).keyPath f host user
      ((setupCommand laptop opts).run w.handler ⟨f, []⟩).state := by
  obtain ⟨ctx', host, user, hnamed, hat⟩ := setupCommand_end h
  exact ⟨host, user, setUp_of_end hnamed hat⟩

/-- A laptop with one user, and with nothing in its environment. -/
def freshLaptop : Laptop where
  py := .plain
  homes user := if user = [] then some ⟨.parse "/home/op".toList, by decide⟩ else none
  env _ := none
  windows := false
  configPath := "/home/op/.config/mower-rover/laptop.yaml"
  defaultKeyPath := .parse "/home/op/.ssh/mower_id_ed25519".toList

/-- Every program succeeds, no check fails, and the operator presses return. -/
def obliging : Surroundings where
  dumper := ⟨fun payload => Yaml.sortKeys (.dict payload), fun _ => Yaml.same_sortKeys _⟩
  torn := id
  oracle _ op := match op with
    | .pathExists _ => true
    | .mkdirParent _ => .ok ()
    | .which name => some s!"/usr/bin/{name}"
    | .run _ | .shell _ => .exited 0 "[]" ""
    | .readConfig => .ok .missing
    | .writeConfig _ => .ok ()
    | .prompt _ _ => .ok ""

theorem setupCommand_resolves_fresh :
    ∃ host user, SetUp freshLaptop freshLaptop.defaultKeyPath .missing host user
      ((setupCommand freshLaptop {}).run obliging.handler ⟨.missing, []⟩).state := by
  have hrun : ((setupCommand freshLaptop {}).run obliging.handler ⟨.missing, []⟩).result =
      .ok () := rfl
  exact setupCommand_resolves hrun

/-- The endpoint of a file that has been configured is chosen again. -/
theorem Named.again {ctx ctx₁ ctx₂ : SetupContext} {host₂ user₂ : String}
    (hforce : ctx.force = false) (h₁ : Named laptop f ctx ctx₁ host user)
    (hconfigured : Configured laptop f ctx₁ host user file b)
    (h₂ : Named laptop file ctx ctx₂ host₂ user₂) : host₂ = host ∧ user₂ = user := by
  have hnames : ctx₂.names = ctx₁.names := by
    have hfirst := h₁.chosen hforce
    have hsecond := h₂.chosen hforce
    unfold Chosen at hfirst hsecond
    split_ifs at hfirst hsecond
    · rw [hfirst, hsecond]
    · rw [hfirst, hsecond]
    · obtain ⟨r, hr, hchosen⟩ := hsecond
      obtain ⟨c, e, key, rfl, hjetson, rfl, rfl, -⟩ := hconfigured.endpoint hr
      obtain ⟨-, -, hhost, huser⟩ := names_eq_ok.mp h₁.names
      rw [hchosen e hjetson hhost huser, h₁.names]
      exact names_eq_ok.mpr ⟨rfl, rfl, hhost, huser⟩
  have heq := h₂.names.symm.trans (hnames.trans h₁.names)
  simpa using heq

/-- A second run meets the same Jetson. It writes the file exactly when the path of the key does not
come back as it was given. -/
theorem setupCommand_again (hforce : opts.force = false)
    (hfirst : ((setupCommand laptop opts).run w.handler ⟨f, []⟩).result = .ok ())
    (hsecond : ((setupCommand laptop opts).run w'.handler
      ⟨((setupCommand laptop opts).run w.handler ⟨f, []⟩).state.file, []⟩).result = .ok ()) :
    let first := ((setupCommand laptop opts).run w.handler ⟨f, []⟩).state
    let second := ((setupCommand laptop opts).run w'.handler ⟨first.file, []⟩).state
    let key := (opts.context laptop).keyPath
    ∃ host user, SetUp laptop key f host user first ∧ SetUp laptop key first.file host user second ∧
      (written second.past = true ↔ key.expanduser laptop.homes ≠ .ok key) ∧
      (key.expanduser laptop.homes = .ok key → second.file = first.file) := by
  intro first second key
  obtain ⟨ctx₁, host, user, hnamed₁, hat₁⟩ := setupCommand_end hfirst
  obtain ⟨ctx₂, host₂, user₂, hnamed₂, hat₂⟩ := setupCommand_end hsecond
  obtain ⟨rfl, rfl⟩ := hnamed₁.again hforce hat₁.file hnamed₂
  obtain ⟨r, hr⟩ := hat₂.file.loads
  obtain ⟨c, e, key', rfl, hjetson, hhost, huser, hkey, hexpands⟩ := hat₁.file.endpoint hr
  rw [hnamed₁.keyPath] at hexpands
  have hmatches : Matches laptop first.file host₂ user₂ ctx₂.keyPath ↔
      key.expanduser laptop.homes = .ok key := by
    rw [hnamed₂.keyPath]
    constructor
    · rintro ⟨c', e', hc', hjetson', -, -, hkey'⟩
      exact loadLaptopConfig_expanded hc' hjetson' hkey'
    · intro hsame
      obtain rfl : key = key' := Except.ok.inj (hsame.symm.trans hexpands)
      exact ⟨c, e, hr, hjetson, hhost, huser, hkey⟩
  refine ⟨host₂, user₂, setUp_of_end hnamed₁ hat₁, setUp_of_end hnamed₂ hat₂, ?_, ?_⟩
  · obtain ⟨hwritten, -, hfile⟩ | ⟨hwritten, hunmatched, -⟩ := hat₂.file
    · rw [hwritten]
      exact iff_of_false Bool.false_ne_true fun hne => hne (hmatches.mp hfile)
    · rw [hwritten]
      refine iff_of_true rfl fun hsame => ?_
      exact hunmatched (hnamed₂.force.trans hforce) (hmatches.mpr hsame)
  · intro hsame
    obtain ⟨-, hfile, -⟩ | ⟨-, hunmatched, -⟩ := hat₂.file
    · exact hfile
    · exact absurd (hmatches.mpr hsame) (hunmatched (hnamed₂.force.trans hforce))

/-- A key that is named from the home directory. -/
def tildeOptions : SetupOptions := { key := some (.parse "~/.ssh/mower_id_ed25519".toList) }

theorem tildeOptions_moves :
    (tildeOptions.context freshLaptop).keyPath.expanduser freshLaptop.homes ≠
      .ok (tildeOptions.context freshLaptop).keyPath := by
  intro hsame
  have hroot : ((tildeOptions.context freshLaptop).keyPath.expanduser freshLaptop.homes).map
      PosixPath.root = .ok .slash := rfl
  rw [hsame] at hroot
  exact absurd (Except.ok.inj hroot) (by decide)

theorem setupCommand_again_tilde :
    let first := ((setupCommand freshLaptop tildeOptions).run obliging.handler ⟨.missing, []⟩).state
    let second :=
      ((setupCommand freshLaptop tildeOptions).run obliging.handler ⟨first.file, []⟩).state
    ∃ host user,
      SetUp freshLaptop (tildeOptions.context freshLaptop).keyPath .missing host user first ∧
      written second.past = true := by
  have hfirst : ((setupCommand freshLaptop tildeOptions).run obliging.handler
      ⟨.missing, []⟩).result = .ok () := rfl
  have hsecond : ((setupCommand freshLaptop tildeOptions).run obliging.handler
      ⟨((setupCommand freshLaptop tildeOptions).run obliging.handler ⟨.missing, []⟩).state.file,
        []⟩).result = .ok () := rfl
  obtain ⟨host, user, hfirst, -, hwritten, -⟩ := setupCommand_again rfl hfirst hsecond
  exact ⟨host, user, hfirst, hwritten.mpr tildeOptions_moves⟩

end Runs

end MowerRover.Cli.Setup
