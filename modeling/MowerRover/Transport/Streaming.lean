import Mathlib.Data.List.DropRight
import MowerRover.Effects.Pipes
import MowerRover.Transport.Ssh

/-!
# Streaming remote commands

`JetsonClient.run_streaming` reads the standard output of `ssh` line by line
while a thread of its own drains the standard error. The process waits whenever
the pipe it writes to is full, so a build that writes much to the standard error
would hang without that thread. Text mode is strict: a reader that meets bytes
which its encoding does not take raises `UnicodeDecodeError` and reads no more.
-/

namespace MowerRover.Transport

open Effects

/-- `argv[1:1] = ["-o", "ServerAliveInterval=30"]` -/
def JetsonClient.streamingArgv (client : JetsonClient) (remoteArgv : List String) :
    Except PyError (List String) := do
  let argv ← client.buildSshArgv remoteArgv
  pure (argv.take 1 ++ ["-o", "ServerAliveInterval=30"] ++ argv.drop 1)

theorem remoteVector_streamingArgv {client : JetsonClient} {remoteArgv plain argv : List String}
    (hplain : client.buildSshArgv remoteArgv = .ok plain)
    (hargv : (pure (plain.take 1 ++ ["-o", "ServerAliveInterval=30"] ++ plain.drop 1) :
      Except PyError (List String)) = .ok argv) :
    remoteVector argv = remoteVector plain := by
  obtain rfl := Except.ok.inj hargv
  cases hssh : client.ssh with
  | none => simp [JetsonClient.buildSshArgv, hssh] at hplain
  | some ssh =>
    simp only [JetsonClient.buildSshArgv, hssh, pure_eq_ok, Except.ok.injEq] at hplain
    subst hplain
    simp [remoteVector, afterHost]

/-- The lines that iterating over a text file gives, each with its line break. -/
def rawLines : List Char → List (List Char)
  | [] => []
  | c :: cs =>
    if c = '\n' then [c] :: rawLines cs
    else
      match rawLines cs with
      | [] => [[c]]
      | line :: lines => (c :: line) :: lines

/-- What `on_line` is called with: `raw_line.rstrip("\n")` -/
def linesOf (text : List Char) : List (List Char) :=
  (rawLines text).map fun rawLine => rawLine.rdropWhile (· = '\n')

/-- A text without the line break at its end. -/
def chomp (text : List Char) : List Char :=
  if text.getLast? = some '\n' then text.dropLast else text

theorem rdropWhile_cons {c : Char} (hc : c ≠ '\n') (cs : List Char) :
    (c :: cs).rdropWhile (· = '\n') = c :: cs.rdropWhile (· = '\n') := by
  induction cs using List.reverseRecOn with
  | nil => simp [List.rdropWhile, hc]
  | append_singleton cs x ih =>
    rw [← List.cons_append, List.rdropWhile_concat, List.rdropWhile_concat, ih]
    split_ifs <;> rfl

theorem rawLines_eq_nil {text : List Char} : rawLines text = [] ↔ text = [] := by
  cases text with
  | nil => simp [rawLines]
  | cons c cs =>
    rw [rawLines]
    split_ifs
    · simp
    · split <;> simp

theorem chomp_cons (c : Char) {cs : List Char} (hne : cs ≠ []) :
    chomp (c :: cs) = c :: chomp cs := by
  rw [chomp, chomp, List.getLast?_cons_of_ne_nil hne, List.dropLast_cons_of_ne_nil hne]
  split_ifs <;> rfl

/-- The lines joined again are the text but for the line break at its end. -/
theorem intercalate_linesOf (text : List Char) :
    ['\n'].intercalate (linesOf text) = chomp text := by
  induction text with
  | nil => rfl
  | cons c cs ih =>
    by_cases hc : c = '\n'
    · subst hc
      have hlines : linesOf ('\n' :: cs) = [] :: linesOf cs := by
        simp [linesOf, rawLines, List.rdropWhile]
      by_cases hnil : cs = []
      · subst hnil
        rfl
      · have hsome : linesOf cs ≠ [] := by simpa [linesOf, rawLines_eq_nil] using hnil
        rw [hlines, List.intercalate_cons_of_ne_nil hsome, ih, chomp_cons _ hnil]
        rfl
    · cases hraw : rawLines cs with
      | nil =>
        obtain rfl := rawLines_eq_nil.mp hraw
        simp [linesOf, rawLines, hc, chomp, List.rdropWhile]
      | cons line lines =>
        have hnil : cs ≠ [] := fun h => by simp [h, rawLines] at hraw
        have hlines : linesOf (c :: cs) = (c :: line.rdropWhile (· = '\n')) ::
            lines.map fun rawLine => rawLine.rdropWhile (· = '\n') := by
          simp [linesOf, rawLines, hc, hraw, rdropWhile_cons hc]
        rw [hlines, List.intercalate_cons_cons_left, chomp_cons c hnil, ← ih, linesOf, hraw,
          List.map_cons]

inductive OutputStream
  | stdout
  | stderr
  deriving DecidableEq, Repr

instance : Fintype OutputStream := ⟨{.stdout, .stderr}, fun s => by cases s <;> simp⟩

/-- The encoding of text mode: what a whole text decodes to, and which bytes the decoder takes
while more may follow. -/
structure Encoding where
  decode : List UInt8 → Option (List Char)
  accepts : List UInt8 → Bool
  decode_nil : decode [] = some []
  accepts_nil : accepts [] = true
  accepts_of_append : ∀ bytes more, accepts (bytes ++ more) = true → accepts bytes = true
  accepts_of_decode : ∀ bytes text, decode bytes = some text → accepts bytes = true

theorem Encoding.accepts_of_prefix (encoding : Encoding) {bytes whole : List UInt8}
    (hstart : bytes <+: whole) (h : encoding.accepts whole = true) :
    encoding.accepts bytes = true := by
  obtain ⟨more, rfl⟩ := hstart
  exact encoding.accepts_of_append bytes more h

/-- The pipes of the process, which hold bytes, and how the call ends. -/
structure Streaming where
  pipes : Pipes OutputStream UInt8
  result : Option (Except PyError SshResult) := none

/-- What is fixed in a call: the bytes that a pipe holds, the encoding, the argument vector, the
exit status of the process, and whether a thread drains the standard error. -/
structure StreamingCall where
  capacity : ℕ
  encoding : Encoding
  argv : List String
  returncode : ℤ
  drained : Bool := true

namespace StreamingCall

variable (call : StreamingCall)

/-- A pipe is read until its bytes no longer decode. -/
def readers (p : Pipes OutputStream UInt8) : Set OutputStream :=
  {i | (i = .stderr → call.drained = true) ∧ call.encoding.accepts (p.taken i) = true}

/-- What the thread has decoded: some of what it took, and all of it once it is done. -/
structure Collected (p : Pipes OutputStream UInt8) (stderr : List Char) : Prop where
  part : ∃ bytes, bytes <+: p.taken .stderr ∧ call.encoding.decode bytes = some stderr
  all : ∀ text, p.ended .stderr = true → call.encoding.decode (p.taken .stderr) = some text →
    stderr = text

theorem exists_collected (p : Pipes OutputStream UInt8) : ∃ stderr, call.Collected p stderr := by
  cases htext : call.encoding.decode (p.taken .stderr) with
  | none =>
    refine ⟨[], ⟨[], List.nil_prefix, call.encoding.decode_nil⟩, fun text _ h => ?_⟩
    exact absurd (htext.symm.trans h) (by simp)
  | some text =>
    exact ⟨text, ⟨_, List.prefix_rfl, htext⟩, fun _ _ h => Option.some.inj (htext.symm.trans h)⟩

def streamed (stdout stderr : List Char) : SshResult :=
  ⟨call.argv, call.returncode, String.ofList (['\n'].intercalate (linesOf stdout)),
    String.ofList stderr⟩

end StreamingCall

namespace Streaming

/-- After the last line the thread is joined, for five seconds at most: the result may be made
while it is still at work. -/
inductive Step (call : StreamingCall) : Streaming → Streaming → Prop
  | pipe {s : Streaming} {p : Pipes OutputStream UInt8} : s.result = none →
      Pipes.Step call.capacity (call.readers s.pipes) s.pipes p →
        Step call s { s with pipes := p }
  | undecodable {s : Streaming} (message : String) : s.result = none →
      call.encoding.accepts (s.pipes.taken .stdout) = false ∨
        s.pipes.ended .stdout = true ∧ call.encoding.decode (s.pipes.taken .stdout) = none →
        Step call s { s with result := some (.error (.other message)) }
  | join {s : Streaming} {stdout stderr : List Char} : s.result = none →
      s.pipes.ended .stdout = true →
      call.encoding.decode (s.pipes.taken .stdout) = some stdout →
      call.Collected s.pipes stderr →
        Step call s { s with result := some (.ok (call.streamed stdout stderr)) }

def start (script : List (OutputStream × UInt8)) : Streaming := ⟨Pipes.start script, none⟩

/-- The states of a call. -/
def Reaches (call : StreamingCall) (script : List (OutputStream × UInt8)) (s : Streaming) : Prop :=
  Relation.ReflTransGen (Step call) (start script) s

variable {call : StreamingCall} {script : List (OutputStream × UInt8)} {s t : Streaming}

theorem Reaches.flows (h : Reaches call script s) : s.pipes.Flows call.capacity script := by
  induction h with
  | refl => exact Pipes.flows_start
  | tail _ hstep ih =>
    cases hstep with
    | pipe _ hpipe => exact ih.step hpipe
    | undecodable => exact ih
    | join => exact ih

theorem Reaches.ok (h : Reaches call script s) {r : SshResult} (hr : s.result = some (.ok r)) :
    ∃ stdout stderr, call.encoding.decode (s.pipes.taken .stdout) = some stdout ∧
      call.Collected s.pipes stderr ∧ s.pipes.ended .stdout = true ∧
      r = call.streamed stdout stderr := by
  cases h with
  | refl => cases hr
  | tail _ hstep =>
    cases hstep with
    | pipe hnone _ => exact absurd (hnone.symm.trans hr) (by simp)
    | undecodable => cases hr
    | join _ hended hstdout hstderr =>
      exact ⟨_, _, hstdout, hstderr, hended, (Except.ok.inj (Option.some.inj hr)).symm⟩

/-- The call raises only where the standard output does not decode. -/
theorem Reaches.error (h : Reaches call script s) {e : PyError}
    (hr : s.result = some (.error e)) :
    call.encoding.decode (Pipes.onto .stdout script) = none := by
  cases h with
  | refl => cases hr
  | @tail u _ hreach hstep =>
    have hflows := Reaches.flows hreach
    cases hstep with
    | pipe hnone _ => exact absurd (hnone.symm.trans hr) (by simp)
    | join => cases hr
    | undecodable message hnone hbad =>
      rcases hbad with hrefused | ⟨hended, hdecode⟩
      · by_contra hsome
        obtain ⟨text, htext⟩ := Option.ne_none_iff_exists'.mp hsome
        have haccepts := call.encoding.accepts_of_prefix (hflows.taken_prefix .stdout)
          (call.encoding.accepts_of_decode _ text htext)
        exact Bool.false_ne_true (hrefused.symm.trans haccepts)
      · rw [← hflows.taken_of_ended hended]
        exact hdecode

/-- A call that can do nothing more has returned or raised, or its process waits for the standard
error that nobody reads. -/
theorem Reaches.stuck (h : Reaches call script s) (hcapacity : 0 < call.capacity)
    (hnone : s.result = none) (hstuck : ∀ t, ¬ Step call s t) :
    (call.drained = true → call.encoding.accepts (s.pipes.taken .stderr) = false) ∧
      (s.pipes.taken .stderr).length + call.capacity < (Pipes.onto .stderr script).length := by
  have haccepts : call.encoding.accepts (s.pipes.taken .stdout) = true := by
    by_contra hrefused
    exact hstuck _ (.undecodable "" hnone (.inl (Bool.eq_false_of_not_eq_true hrefused)))
  have hstdout : .stdout ∈ call.readers s.pipes := ⟨nofun, haccepts⟩
  have hpipes : ∀ q, ¬ Pipes.Step call.capacity (call.readers s.pipes) s.pipes q := fun q hq =>
    hstuck _ (.pipe hnone hq)
  rcases h.flows.stuck hcapacity hpipes with ⟨-, hended⟩ | ⟨i, a, rest, hunread, hscript, hfull⟩
  · -- both outcomes at the end of the output are steps
    cases htext : call.encoding.decode (s.pipes.taken .stdout) with
    | none => exact absurd (.undecodable "" hnone (.inr ⟨hended _ hstdout, htext⟩)) (hstuck _)
    | some text =>
      obtain ⟨stderr, hstderr⟩ := call.exists_collected s.pipes
      exact absurd (.join hnone (hended _ hstdout) htext hstderr) (hstuck _)
  · cases i with
    | stdout => exact absurd hstdout hunread
    | stderr =>
      refine ⟨fun hdrained => ?_, h.flows.lt_length_of_waiting hscript hfull⟩
      by_contra htaken
      exact hunread ⟨fun _ => hdrained, Bool.eq_true_of_not_eq_false htaken⟩

theorem Reaches.taken_of_undrained (h : Reaches call script s) (hdrained : call.drained = false) :
    s.pipes.taken .stderr = [] := by
  induction h with
  | refl => rfl
  | tail _ hstep ih =>
    cases hstep with
    | undecodable => exact ih
    | join => exact ih
    | pipe _ hpipe =>
      rcases hpipe.taken .stderr with hsame | ⟨hread, -⟩
      · rw [hsame, ih]
      · exact absurd (hdrained.symm.trans (hread.1 rfl)) Bool.false_ne_true

/-- The thread takes at most one pipe more than the bytes that end it. -/
theorem Reaches.taken_length (h : Reaches call script s) {bad : List UInt8}
    (hbad : bad <+: Pipes.onto .stderr script) (hrefused : call.encoding.accepts bad = false) :
    (s.pipes.taken .stderr).length < bad.length + call.capacity := by
  have hsome : 0 < bad.length := by
    rw [List.length_pos_iff]
    rintro rfl
    exact Bool.false_ne_true (hrefused.symm.trans call.encoding.accepts_nil)
  induction h with
  | refl => exact Nat.add_pos_left hsome _
  | @tail u v hreach hstep ih =>
    cases hstep with
    | undecodable => exact ih
    | join => exact ih
    | pipe _ hpipe =>
      rcases hpipe.taken .stderr with hsame | ⟨hread, hlength⟩
      · rw [hsame]
        exact ih
      · have hflows := Reaches.flows hreach
        have hshort : (u.pipes.taken .stderr).length < bad.length := by
          by_contra hlong
          have hread_bad := List.prefix_of_prefix_length_le hbad (hflows.taken_prefix .stderr)
            (not_lt.mp hlong)
          have haccepts := call.encoding.accepts_of_prefix hread_bad hread.2
          exact Bool.false_ne_true (hrefused.symm.trans haccepts)
        have hinside := hflows.bounded .stderr
        exact lt_of_le_of_lt hlength (by omega)

theorem Reaches.closed (h : Reaches call script s) {r : SshResult}
    (hr : s.result = some (.ok r)) : s.pipes.closed = true := by
  obtain ⟨-, -, -, -, hended, -⟩ := h.ok hr
  exact (h.flows.emptied .stdout hended).1

/-- What is left of a call. -/
def remaining (s : Streaming) : ℕ := s.pipes.remaining + if s.result.isNone then 1 else 0

theorem Step.remaining_lt (hstep : Step call s t) : t.remaining < s.remaining := by
  cases hstep with
  | pipe hnone hpipe =>
    have hless := hpipe.remaining_lt
    simp only [remaining]
    omega
  | undecodable message hnone _ => simp [remaining, hnone]
  | join hnone _ => simp [remaining, hnone]

theorem remaining_start (script : List (OutputStream × UInt8)) :
    (start script).remaining = 2 * script.length + 4 := by
  have hcard : Fintype.card OutputStream = 2 := rfl
  simp [remaining, start, Pipes.remaining, Pipes.start, hcard]

/-- The thread keeps the call from waiting for ever, whatever the process writes in whatever order,
as long as the standard error decodes or not much of it follows the bytes that do not. Where two
pipes full follow them the call never returns, and without the thread it hangs if and only if more
is written to the standard error than its pipe holds. The result has all of the standard output,
and all of the standard error if the thread was done. -/
theorem runStreaming_delivers (client : JetsonClient) {remoteArgv : List String}
    (hargv : client.streamingArgv remoteArgv = .ok call.argv) (hcapacity : 0 < call.capacity)
    (script : List (OutputStream × UInt8)) :
    (∃ plain, client.buildSshArgv remoteArgv = .ok plain ∧
      remoteVector call.argv = remoteVector plain) ∧
    (∀ run, (start script :: run).IsChain (Step call) → run.length ≤ 2 * script.length + 4) ∧
    (call.drained = true →
      (∀ bad, bad <+: Pipes.onto .stderr script → call.encoding.accepts bad = false →
        (Pipes.onto .stderr script).length ≤ bad.length + call.capacity) →
      ∀ s, Reaches call script s → s.result = none → ∃ t, Step call s t) ∧
    (∀ bad, bad <+: Pipes.onto .stderr script → call.encoding.accepts bad = false →
      bad.length + 2 * call.capacity ≤ (Pipes.onto .stderr script).length →
      ∀ s r, Reaches call script s → s.result ≠ some (.ok r)) ∧
    (call.drained = false → call.encoding.decode (Pipes.onto .stdout script) ≠ none →
      ∀ s, Reaches call script s → (∀ t, ¬ Step call s t) →
        (s.result = none ↔ call.capacity < (Pipes.onto .stderr script).length)) ∧
    (∀ s r, Reaches call script s → s.result = some (.ok r) →
      r.argv = call.argv ∧ r.returncode = call.returncode ∧
      (∃ text, call.encoding.decode (Pipes.onto .stdout script) = some text ∧
        r.stdout = String.ofList (chomp text)) ∧
      (∃ bytes text, bytes <+: Pipes.onto .stderr script ∧
        call.encoding.decode bytes = some text ∧ r.stderr = String.ofList text) ∧
      ∀ text, s.pipes.ended .stderr = true →
        call.encoding.decode (Pipes.onto .stderr script) = some text →
        r.stderr = String.ofList text) ∧
    ∀ s e, Reaches call script s → s.result = some (.error e) →
      call.encoding.decode (Pipes.onto .stdout script) = none := by
  refine ⟨?_, fun run hrun => ?_, fun hdrained hshort s hs hnone => ?_,
    fun bad hbad hrefused hlong s r hs hr => ?_,
    fun hdrained hstdout s hs hstuck => ⟨fun hnone => ?_, fun hlong => ?_⟩, fun s r hs hr => ?_,
    fun s e hs hr => hs.error hr⟩
  · obtain ⟨plain, hplain, hstreaming⟩ := bind_eq_ok.mp hargv
    exact ⟨plain, hplain, remoteVector_streamingArgv hplain hstreaming⟩
  · rw [← remaining_start]
    exact length_le_of_decreasing remaining (fun _ _ hstep => hstep.remaining_lt) hrun
  · by_contra hno
    obtain ⟨hrefused, hwaiting⟩ := hs.stuck hcapacity hnone fun t ht => hno ⟨t, ht⟩
    have hfits := hshort _ (hs.flows.taken_prefix .stderr) (hrefused hdrained)
    omega
  · have htaken := hs.taken_length hbad hrefused
    have hfits := hs.flows.length_le_of_closed (hs.closed hr) .stderr
    omega
  · have hwaiting := (hs.stuck hcapacity hnone hstuck).2
    rw [hs.taken_of_undrained hdrained] at hwaiting
    simpa using hwaiting
  · rcases hresult : s.result with _ | (e | r)
    · rfl
    · exact absurd (hs.error hresult) hstdout
    · have hfits := hs.flows.length_le_of_closed (hs.closed hresult) .stderr
      rw [hs.taken_of_undrained hdrained, List.length_nil, Nat.zero_add] at hfits
      exact absurd hlong (not_lt.mpr hfits)
  · obtain ⟨stdout, stderr, hstdout, hstderr, hended, rfl⟩ := hs.ok hr
    rw [hs.flows.taken_of_ended hended] at hstdout
    refine ⟨rfl, rfl, ⟨stdout, hstdout, ?_⟩, ?_, fun text hall htext => ?_⟩
    · rw [StreamingCall.streamed, intercalate_linesOf]
    · obtain ⟨bytes, hprefix, hdecode⟩ := hstderr.part
      exact ⟨bytes, stderr, hprefix.trans (hs.flows.taken_prefix .stderr), hdecode, rfl⟩
    · rw [← hs.flows.taken_of_ended hall] at htext
      rw [StreamingCall.streamed, hstderr.all text hall htext]

/-- Seven-bit bytes stand for themselves. -/
def ascii : Encoding where
  decode bytes :=
    if bytes.all (· < 128) then some (bytes.map fun b => Char.ofNat b.toNat) else none
  accepts bytes := bytes.all (· < 128)
  decode_nil := rfl
  accepts_nil := rfl
  accepts_of_append bytes more h := by
    rw [List.all_append, Bool.and_eq_true] at h
    exact h.1
  accepts_of_decode bytes text h := by
    split_ifs at h with hall
    exact hall

/-- A build that complains twice before it says that it is done. -/
def buildScript : List (OutputStream × UInt8) :=
  [(.stderr, 33), (.stderr, 33), (.stdout, 111), (.stdout, 107), (.stdout, 10)]

/-- A build whose first complaint is no text. -/
def brokenScript : List (OutputStream × UInt8) :=
  [(.stderr, 255), (.stderr, 33), (.stderr, 33), (.stdout, 10)]

def buildCall : StreamingCall where
  capacity := 1
  encoding := ascii
  argv :=
    ["/usr/bin/ssh", "-o", "ServerAliveInterval=30", "-o", "StrictHostKeyChecking=accept-new", "-o",
      "ConnectTimeout=10", "-o", "BatchMode=yes", "-o", "PasswordAuthentication=no", "-i",
      "id_ed25519", "-p", "22", "mower@10.0.0.2", "make"]
  returncode := 0

theorem runStreaming_delivers_build :
    (∀ s, Reaches buildCall buildScript s → s.result = none → ∃ t, Step buildCall s t) ∧
      (∀ s r, Reaches buildCall buildScript s → s.result = some (.ok r) → r.stdout = "ok") ∧
      (∀ s r, Reaches buildCall brokenScript s → s.result ≠ some (.ok r)) ∧
      ∀ s, Reaches { buildCall with drained := false } buildScript s →
        (∀ t, ¬ Step { buildCall with drained := false } s t) → s.result = none := by
  have hargv : roverClient.streamingArgv ["make"] = .ok buildCall.argv := by decide
  obtain ⟨-, -, hruns, -, -, hresult, -⟩ :=
    runStreaming_delivers roverClient hargv one_pos buildScript
  obtain ⟨-, -, -, hnever, -⟩ := runStreaming_delivers roverClient hargv one_pos brokenScript
  obtain ⟨-, -, -, -, hhangs, -⟩ :=
    @runStreaming_delivers { buildCall with drained := false } roverClient _ hargv one_pos
      buildScript
  refine ⟨hruns rfl fun bad hbad hrefused => ?_, fun s r hs hr => ?_,
    hnever [255] ⟨[33, 33], rfl⟩ (by decide) (by decide),
    fun s hs hstuck => (hhangs rfl (by decide) s hs hstuck).mpr (by decide)⟩
  · have haccepts := ascii.accepts_of_prefix hbad (by decide)
    exact absurd (hrefused.symm.trans haccepts) Bool.false_ne_true
  · obtain ⟨text, htext, hout⟩ := (hresult s r hs hr).2.2.1
    have hok : ascii.decode (Pipes.onto .stdout buildScript) = some ['o', 'k', '\n'] := by decide
    rw [hout, ← Option.some.inj (hok.symm.trans htext)]
    rfl

end Streaming

end MowerRover.Transport
