import Nvscope.Model.Launcher

/-!
# What the launcher makes of its arguments

The option loop reads exactly the printed forms of options, and hands on what follows them as it is. The library
in the command sees the options in front of the environment.
-/

namespace Nvscope

open Lib

inductive LauncherOption where
  | trace
  | noIoctl
  | noProc
  | gpuUuid (uuid : CStr)
  | lib (path : CStr)
  deriving DecidableEq

namespace LauncherOption

/-- How an option is written. -/
def words : LauncherOption → List CStr
  | .trace => [ascii "--trace"]
  | .noIoctl => [ascii "--no-ioctl"]
  | .noProc => [ascii "--no-proc"]
  | .gpuUuid uuid => [ascii "--gpu-uuid", uuid]
  | .lib path => [ascii "--lib", path]

def apply (st : LauncherState) : LauncherOption → LauncherState
  | .trace => st.put (ascii "NVSCOPE_TRACE") (ascii "1")
  | .noIoctl => st.put (ascii "NVSCOPE_IOCTL") (ascii "0")
  | .noProc => st.put (ascii "NVSCOPE_PROC") (ascii "0")
  | .gpuUuid uuid => st.put (ascii "NVSCOPE_GPU_UUID") uuid
  | .lib path => st.setLib path

def known : List CStr :=
  [ascii "--trace", ascii "--no-ioctl", ascii "--no-proc", ascii "--gpu-uuid", ascii "--lib", ascii "-h",
    ascii "--help", ascii "--"]

end LauncherOption

/-- What stands behind the options, and what the script makes of it: the command, or an end of its own. -/
inductive OptionsEnd : List CStr → Launch ⊕ List CStr → Prop where
  | command {args : List CStr} (h : ∀ arg, args.head? = some arg → arg.head? ≠ some minus) :
      OptionsEnd args (.inr args)
  | separator (args : List CStr) : OptionsEnd (ascii "--" :: args) (.inr args)
  | help {arg : CStr} (h : arg = ascii "-h" ∨ arg = ascii "--help") (args : List CStr) :
      OptionsEnd (arg :: args) (.inl (.exit 0 [usage] []))
  | noUuid : OptionsEnd [ascii "--gpu-uuid"] (.inl (.exit 2 [] [.echo (ascii "nvscope: --gpu-uuid requires a value")]))
  | noPath : OptionsEnd [ascii "--lib"] (.inl (.exit 2 [] [.echo (ascii "nvscope: --lib requires a path")]))
  | unknown {arg : CStr} (hminus : arg.head? = some minus) (h : arg ∉ LauncherOption.known) (args : List CStr) :
      OptionsEnd (arg :: args) (.inl (.exit 2 [] [.echo (ascii "nvscope: unknown option: " ++ arg), usage]))

/-! ## The option loop -/

variable {args rest command : List CStr} {opts : List LauncherOption}

/-- Step lemma: the words of one option are consumed. -/
theorem launcherOptions_words (o : LauncherOption) (args : List CStr) (st : LauncherState) :
    launcherOptions (o.words ++ args) st = launcherOptions args (o.apply st) := by
  cases o with
  | trace =>
      have hcase : launcherCase (ascii "--trace") = .trace := rfl
      rw [LauncherOption.words, List.cons_append, launcherOptions.eq_def]
      simp only [hcase, List.nil_append, LauncherOption.apply]
  | noIoctl =>
      have hcase : launcherCase (ascii "--no-ioctl") = .noIoctl := rfl
      rw [LauncherOption.words, List.cons_append, launcherOptions.eq_def]
      simp only [hcase, List.nil_append, LauncherOption.apply]
  | noProc =>
      have hcase : launcherCase (ascii "--no-proc") = .noProc := rfl
      rw [LauncherOption.words, List.cons_append, launcherOptions.eq_def]
      simp only [hcase, List.nil_append, LauncherOption.apply]
  | gpuUuid uuid =>
      have hcase : launcherCase (ascii "--gpu-uuid") = .gpuUuid := rfl
      rw [LauncherOption.words, List.cons_append, launcherOptions.eq_def]
      simp only [hcase, List.nil_append, List.cons_append, LauncherOption.apply]
  | lib path =>
      have hcase : launcherCase (ascii "--lib") = .lib := rfl
      rw [LauncherOption.words, List.cons_append, launcherOptions.eq_def]
      simp only [hcase, List.nil_append, List.cons_append, LauncherOption.apply]

/-- Run lemma. -/
theorem launcherOptions_flatMap (opts : List LauncherOption) (args : List CStr) (st : LauncherState) :
    launcherOptions (opts.flatMap LauncherOption.words ++ args) st =
      launcherOptions args (opts.foldl LauncherOption.apply st) := by
  induction opts generalizing st with
  | nil => rfl
  | cons o opts ih =>
      rw [List.flatMap_cons, List.append_assoc, launcherOptions_words, ih]
      rfl

theorem head_of_known {arg : CStr} (h : arg ∈ LauncherOption.known) : arg.head? = some minus := by
  revert arg
  decide

theorem launcherCase_not_known {arg : CStr} (h : arg ∉ LauncherOption.known) :
    launcherCase arg = if arg.head? = some minus then .unknown else .word := by
  simp only [LauncherOption.known, List.mem_cons, List.not_mem_nil, or_false, not_or] at h
  obtain ⟨htrace, hioctl, hproc, huuid, hlib, hh, hhelp, hend⟩ := h
  simp only [launcherCase, htrace, hioctl, hproc, huuid, hlib, hh, hhelp, hend, or_self, ↓reduceIte]

theorem launcherOptions_end {r : Launch ⊕ List CStr} (h : OptionsEnd args r) (st : LauncherState) :
    launcherOptions args st = r.map id fun command => (st, command) := by
  cases h with
  | command h =>
      cases args with
      | nil => rfl
      | cons arg args =>
          have hminus := h arg rfl
          have hcase : launcherCase arg = .word := by
            rw [launcherCase_not_known fun hknown => hminus (head_of_known hknown), if_neg hminus]
          rw [launcherOptions.eq_def]
          simp only [hcase, Sum.map_inr]
  | separator args =>
      have hcase : launcherCase (ascii "--") = .separator := rfl
      rw [launcherOptions.eq_def]
      simp only [hcase, Sum.map_inr]
  | @help arg h args =>
      have hcase : launcherCase arg = .help := by rcases h with rfl | rfl <;> rfl
      rw [launcherOptions.eq_def]
      simp only [hcase, Sum.map_inl, id]
  | noUuid =>
      have hcase : launcherCase (ascii "--gpu-uuid") = .gpuUuid := rfl
      rw [launcherOptions.eq_def]
      simp only [hcase, Sum.map_inl, id]
  | noPath =>
      have hcase : launcherCase (ascii "--lib") = .lib := rfl
      rw [launcherOptions.eq_def]
      simp only [hcase, Sum.map_inl, id]
  | @unknown arg hminus h args =>
      have hcase : launcherCase arg = .unknown := by rw [launcherCase_not_known h, if_pos hminus]
      rw [launcherOptions.eq_def]
      simp only [hcase, Sum.map_inl, id]

/-- Every list of arguments is a list of options with an end. -/
theorem exists_reading (args : List CStr) : ∃ (opts : List LauncherOption) (rest : List CStr) (r : Launch ⊕ List CStr),
    args = opts.flatMap LauncherOption.words ++ rest ∧ OptionsEnd rest r := by
  have hcons : ∀ (o : LauncherOption) {args : List CStr},
      (∃ (opts : List LauncherOption) (rest : List CStr) (r : Launch ⊕ List CStr),
        args = opts.flatMap LauncherOption.words ++ rest ∧ OptionsEnd rest r) →
      ∃ (opts : List LauncherOption) (rest : List CStr) (r : Launch ⊕ List CStr),
        o.words ++ args = opts.flatMap LauncherOption.words ++ rest ∧ OptionsEnd rest r := by
    rintro o args ⟨opts, rest, r, rfl, hend⟩
    exact ⟨o :: opts, rest, r, by rw [List.flatMap_cons, List.append_assoc], hend⟩
  induction hlen : args.length using Nat.strongRecOn generalizing args with
  | ind n ih =>
      subst hlen
      cases args with
      | nil => exact ⟨[], [], _, rfl, .command fun arg h => by cases h⟩
      | cons arg args =>
          have hlt : args.length < (arg :: args).length := Nat.lt_succ_self _
          by_cases hknown : arg ∈ LauncherOption.known
          · simp only [LauncherOption.known, List.mem_cons, List.not_mem_nil, or_false] at hknown
            rcases hknown with rfl | rfl | rfl | rfl | rfl | rfl | rfl | rfl
            · exact hcons .trace (ih _ hlt args rfl)
            · exact hcons .noIoctl (ih _ hlt args rfl)
            · exact hcons .noProc (ih _ hlt args rfl)
            · cases args with
              | nil => exact ⟨[], _, _, rfl, .noUuid⟩
              | cons uuid args => exact hcons (.gpuUuid uuid) (ih _ (Nat.lt_of_succ_lt hlt) args rfl)
            · cases args with
              | nil => exact ⟨[], _, _, rfl, .noPath⟩
              | cons path args => exact hcons (.lib path) (ih _ (Nat.lt_of_succ_lt hlt) args rfl)
            · exact ⟨[], _, _, rfl, .help (Or.inl rfl) args⟩
            · exact ⟨[], _, _, rfl, .help (Or.inr rfl) args⟩
            · exact ⟨[], _, _, rfl, .separator args⟩
          · by_cases hminus : arg.head? = some minus
            · exact ⟨[], _, _, rfl, .unknown hminus hknown args⟩
            · refine ⟨[], _, _, rfl, .command fun arg' h => ?_⟩
              cases h
              exact hminus

/-! ## The script -/

variable {shell : Shell} {scriptDir : CStr} {isFile : CStr → Bool} {env env' : Environ}

/-- The state behind the options. -/
def launcherState (scriptDir : CStr) (isFile : CStr → Bool) (env : Environ) (opts : List LauncherOption) :
    LauncherState :=
  opts.foldl LauncherOption.apply (launcherStart scriptDir isFile env)

/-- What the script makes of a reading of its arguments. -/
theorem nvscope_of_reading {r : Launch ⊕ List CStr} (hend : OptionsEnd rest r) :
    nvscope shell scriptDir isFile env (opts.flatMap LauncherOption.words ++ rest) =
      r.elim id (launcherExec shell isFile (launcherState scriptDir isFile env opts)) := by
  rw [nvscope, launcherOptions_flatMap, launcherOptions_end hend]
  cases r <;> rfl

/-- A command is behind the options as it stands, or behind `--`. -/
theorem OptionsEnd.sep_of_command (h : OptionsEnd rest (.inr command)) :
    ∃ sep, rest = sep ++ command ∧ (sep = [] ∨ sep = [ascii "--"]) := by
  cases h with
  | command => exact ⟨[], rfl, Or.inl rfl⟩
  | separator => exact ⟨[ascii "--"], rfl, Or.inr rfl⟩

theorem OptionsEnd.not_exec {launch : Launch} (h : OptionsEnd rest (.inl launch)) (env : Environ)
    (command : List CStr) : launch ≠ .exec env command := by
  cases h with
  | _ => exact Launch.noConfusion

theorem launcherExec_eq_exec {st : LauncherState} {command' : List CStr} :
    launcherExec shell isFile st command = .exec env' command' ↔
      command ≠ [] ∧ isFile st.lib = true ∧ env' = shell.handsOn (launcherEnv st) ∧ command' = command := by
  rw [launcherExec]
  by_cases hne : command = []
  · rw [if_pos hne]
    exact ⟨fun h => Launch.noConfusion h, fun h => absurd hne h.1⟩
  · rw [if_neg hne]
    cases isFile st.lib with
    | false => exact ⟨fun h => Launch.noConfusion h, fun h => absurd h.2.1 Bool.false_ne_true⟩
    | true =>
        refine ⟨fun h => ?_, ?_⟩
        · cases h
          exact ⟨hne, rfl, rfl, rfl⟩
        · rintro ⟨-, -, rfl, rfl⟩
          rfl

/-- A command is executed exactly for the printed forms of options that an end with a command follows. -/
theorem nvscope_exec : nvscope shell scriptDir isFile env args = .exec env' command ↔
    ∃ (opts : List LauncherOption) (rest : List CStr),
      args = opts.flatMap LauncherOption.words ++ rest ∧ OptionsEnd rest (.inr command) ∧ command ≠ [] ∧
        isFile (launcherState scriptDir isFile env opts).lib = true ∧
        env' = shell.handsOn (launcherEnv (launcherState scriptDir isFile env opts)) := by
  constructor
  · intro h
    obtain ⟨opts, rest, r, rfl, hend⟩ := exists_reading args
    rw [nvscope_of_reading hend] at h
    cases r with
    | inl launch => exact absurd h (hend.not_exec env' command)
    | inr command' =>
        obtain ⟨hne, hfile, henv, rfl⟩ := launcherExec_eq_exec.mp h
        exact ⟨opts, rest, rfl, hend, hne, hfile, henv⟩
  · rintro ⟨opts, rest, rfl, hend, hne, hfile, henv⟩
    rw [nvscope_of_reading hend]
    exact launcherExec_eq_exec.mpr ⟨hne, hfile, henv, rfl⟩

/-! ## One reading -/

theorem not_end_words (o : LauncherOption) {args : List CStr} {r : Launch ⊕ List CStr} :
    ¬ OptionsEnd (o.words ++ args) r := by
  have hknown : ∃ arg rest, o.words = arg :: rest ∧ arg ∈ LauncherOption.known ∧ arg ≠ ascii "-h" ∧
      arg ≠ ascii "--help" ∧ arg ≠ ascii "--" ∧ ((arg = ascii "--gpu-uuid" ∨ arg = ascii "--lib") → rest ≠ []) := by
    cases o with
    | trace => exact ⟨_, _, rfl, by decide⟩
    | noIoctl => exact ⟨_, _, rfl, by decide⟩
    | noProc => exact ⟨_, _, rfl, by decide⟩
    | gpuUuid uuid =>
        exact ⟨_, _, rfl, by decide, by decide, by decide, by decide, fun _ => List.cons_ne_nil _ _⟩
    | lib path => exact ⟨_, _, rfl, by decide, by decide, by decide, by decide, fun _ => List.cons_ne_nil _ _⟩
  obtain ⟨arg, rest, hwords, hmem, hh, hhelp, hsep, hvalue⟩ := hknown
  rw [hwords, List.cons_append]
  generalize hlist : arg :: (rest ++ args) = list
  intro h
  cases h with
  | command h => exact h arg (by rw [← hlist]; rfl) (head_of_known hmem)
  | separator args' =>
      obtain ⟨rfl, -⟩ := List.cons.inj hlist
      exact hsep rfl
  | help h args' =>
      obtain ⟨rfl, -⟩ := List.cons.inj hlist
      exact h.elim hh hhelp
  | noUuid =>
      obtain ⟨rfl, hnil⟩ := List.cons.inj hlist
      exact hvalue (Or.inl rfl) (List.append_eq_nil_iff.mp hnil).1
  | noPath =>
      obtain ⟨rfl, hnil⟩ := List.cons.inj hlist
      exact hvalue (Or.inr rfl) (List.append_eq_nil_iff.mp hnil).1
  | unknown hminus h args' =>
      obtain ⟨rfl, -⟩ := List.cons.inj hlist
      exact h hmem

theorem words_append_inj {o o' : LauncherOption} {args args' : List CStr}
    (h : o.words ++ args = o'.words ++ args') : o = o' ∧ args = args' := by
  cases o with
  | trace =>
      cases o' <;> obtain ⟨hword, hrest⟩ := List.cons.inj h <;> first | exact ⟨rfl, hrest⟩ | exact absurd hword (by decide)
  | noIoctl =>
      cases o' <;> obtain ⟨hword, hrest⟩ := List.cons.inj h <;> first | exact ⟨rfl, hrest⟩ | exact absurd hword (by decide)
  | noProc =>
      cases o' <;> obtain ⟨hword, hrest⟩ := List.cons.inj h <;> first | exact ⟨rfl, hrest⟩ | exact absurd hword (by decide)
  | gpuUuid uuid =>
      cases o' with
      | gpuUuid uuid' =>
          obtain ⟨rfl, hrest⟩ := List.cons.inj (List.cons.inj h).2
          exact ⟨rfl, hrest⟩
      | _ => exact absurd (List.cons.inj h).1 (by decide)
  | lib path =>
      cases o' with
      | lib path' =>
          obtain ⟨rfl, hrest⟩ := List.cons.inj (List.cons.inj h).2
          exact ⟨rfl, hrest⟩
      | _ => exact absurd (List.cons.inj h).1 (by decide)

theorem reading_unique {opts opts' : List LauncherOption} {rest rest' : List CStr} {r r' : Launch ⊕ List CStr}
    (h : opts.flatMap LauncherOption.words ++ rest = opts'.flatMap LauncherOption.words ++ rest')
    (hend : OptionsEnd rest r) (hend' : OptionsEnd rest' r') : opts = opts' ∧ rest = rest' := by
  induction opts generalizing opts' with
  | nil =>
      cases opts' with
      | nil => exact ⟨rfl, h⟩
      | cons o' opts' =>
          rw [List.flatMap_nil, List.nil_append, List.flatMap_cons, List.append_assoc] at h
          rw [h] at hend
          exact absurd hend (not_end_words o')
  | cons o opts ih =>
      rw [List.flatMap_cons, List.append_assoc] at h
      cases opts' with
      | nil =>
          rw [List.flatMap_nil, List.nil_append] at h
          rw [← h] at hend'
          exact absurd hend' (not_end_words o)
      | cons o' opts' =>
          rw [List.flatMap_cons, List.append_assoc] at h
          obtain ⟨rfl, htail⟩ := words_append_inj h
          obtain ⟨rfl, hrest⟩ := ih htail
          exact ⟨rfl, hrest⟩

/-- Every list of arguments has exactly one reading, as the printed forms of options and an end, and the reading
says what the script does: it prints its help or an error, or the command is executed as it stands, with the
environment the shell makes of the one the options ask for. -/
theorem launcher_reads (shell : Shell) (scriptDir : CStr) (isFile : CStr → Bool) (env : Environ) (args : List CStr) :
    (∃ (opts : List LauncherOption) (rest : List CStr) (r : Launch ⊕ List CStr),
      args = opts.flatMap LauncherOption.words ++ rest ∧ OptionsEnd rest r ∧
      nvscope shell scriptDir isFile env args =
        r.elim id (launcherExec shell isFile (launcherState scriptDir isFile env opts)) ∧
      ∀ (opts' : List LauncherOption) (rest' : List CStr) (r' : Launch ⊕ List CStr),
        args = opts'.flatMap LauncherOption.words ++ rest' → OptionsEnd rest' r' → opts' = opts ∧ rest' = rest) ∧
    ∀ env' command, nvscope shell scriptDir isFile env args = .exec env' command ↔
      ∃ (opts : List LauncherOption) (rest : List CStr),
        args = opts.flatMap LauncherOption.words ++ rest ∧ OptionsEnd rest (.inr command) ∧ command ≠ [] ∧
          isFile (launcherState scriptDir isFile env opts).lib = true ∧
          env' = shell.handsOn (launcherEnv (launcherState scriptDir isFile env opts)) := by
  refine ⟨?_, fun _ _ => nvscope_exec⟩
  obtain ⟨opts, rest, r, rfl, hend⟩ := exists_reading args
  exact ⟨opts, rest, r, rfl, hend, nvscope_of_reading hend,
    fun opts' rest' r' h hend' => reading_unique h.symm hend' hend⟩

end Nvscope
