import Nvscope.Theorems.Launcher

/-!
# The environment of a launched command

The options of the launcher are in front of the environment, the last of a kind in front of the earlier ones; a
launcher inside a launcher adds its options to those outside. Of variables that are the shell's own, and of names
that are none to it, nothing is said.
-/

namespace Nvscope

open Lib

variable {shell : Shell} {scriptDir : CStr} {isFile : CStr → Bool} {env env' : Environ}
  {opts : List LauncherOption} {name : CStr}

/-! ## Variables -/

namespace LauncherOption

/-- The value an option gives a variable. -/
def setting (name : CStr) : LauncherOption → Option CStr
  | .trace => if name = ascii "NVSCOPE_TRACE" then some (ascii "1") else none
  | .noIoctl => if name = ascii "NVSCOPE_IOCTL" then some (ascii "0") else none
  | .noProc => if name = ascii "NVSCOPE_PROC" then some (ascii "0") else none
  | .gpuUuid uuid => if name = ascii "NVSCOPE_GPU_UUID" then some uuid else none
  | .lib _ => none

end LauncherOption

/-- The value of the last option that gives one. -/
def lastSetting (name : CStr) (opts : List LauncherOption) : Option CStr :=
  opts.reverse.findSome? (LauncherOption.setting name)

/-- The shell leaves a variable of this name as it is. -/
structure Shell.Keeps (shell : Shell) (name : CStr) : Prop where
  named : isVariableName name = true
  notOwn : name ∉ shell.own

theorem Shell.Keeps.handsOn (h : shell.Keeps name) (env : Environ) : shell.handsOn env name = env name :=
  shell.kept env name h.named h.notOwn

theorem isVariableName_of_mem : ∀ name ∈ launcherVariables, isVariableName name = true := by
  decide

theorem Shell.keeps_of_mem (shell : Shell) (h : name ∈ launcherVariables) : shell.Keeps name :=
  ⟨isVariableName_of_mem name h, shell.apart name h⟩

theorem put_apply (env : Environ) (name value name' : CStr) :
    env.put name value name' = if name' = name then some value else env name' :=
  Function.update_apply env name (some value) name'

theorem assign_of_ne {name' : CStr} (h : name' ≠ name) (value : CStr) : env.assign name value name' = env name' := by
  rw [Environ.assign]
  split
  · rfl
  · rw [put_apply, if_neg h]

theorem lastSetting_append (opts opts' : List LauncherOption) :
    lastSetting name (opts ++ opts') = (lastSetting name opts').or (lastSetting name opts) := by
  rw [lastSetting, List.reverse_append, List.findSome?_append]
  rfl

theorem env_apply (hname : name ≠ ascii "lib") (o : LauncherOption) (st : LauncherState) :
    (o.apply st).env name = (o.setting name).or (st.env name) := by
  have hput : ∀ name' value, (st.put name' value).env name =
      (if name = name' then some value else none).or (st.env name) := by
    intro name' value
    simp only [LauncherState.put, put_apply]
    split <;> rfl
  cases o with
  | lib path => exact assign_of_ne hname path
  | _ => exact hput _ _

theorem env_foldl (hname : name ≠ ascii "lib") (opts : List LauncherOption) (st : LauncherState) :
    (opts.foldl LauncherOption.apply st).env name = (lastSetting name opts).or (st.env name) := by
  induction opts generalizing st with
  | nil => rfl
  | cons o opts ih =>
      have hcons : lastSetting name (o :: opts) = (lastSetting name opts).or (o.setting name) := by
        have happ := @lastSetting_append name [o] opts
        rw [List.singleton_append] at happ
        rw [happ]
        cases hset : o.setting name <;> simp [lastSetting, hset]
      rw [List.foldl_cons, ih, env_apply hname, hcons, Option.or_assoc]

theorem env_launcherStart (hname : name ∉ ownVariables) :
    (launcherStart scriptDir isFile env).env name = env name := by
  simp only [ownVariables, List.mem_cons, List.not_mem_nil, or_false, not_or] at hname
  obtain ⟨hdir, hsource, hinstalled, hlib⟩ := hname
  simp only [launcherStart, LauncherState.setLib]
  split <;> simp only [assign_of_ne hlib, assign_of_ne hinstalled, assign_of_ne hsource, assign_of_ne hdir]

theorem env_launcherState (hname : name ∉ ownVariables) :
    (launcherState scriptDir isFile env opts).env name = (lastSetting name opts).or (env name) := by
  have hlib : name ≠ ascii "lib" := fun h => hname (by rw [h]; decide)
  rw [launcherState, env_foldl hlib, env_launcherStart hname]

/-- What the environment gives a variable before the options; the ioctl filter is on where nothing is said. -/
def inherited (env : Environ) (name : CStr) : Option CStr :=
  if name = ascii "NVSCOPE_IOCTL" ∧ env (ascii "NVSCOPE_IOCTL") = none ∧ env (ascii "NV_VIDEO_FIX_IOCTL") = none then
    some (ascii "1") else env name

theorem lastSetting_legacy : lastSetting (ascii "NV_VIDEO_FIX_IOCTL") opts = none := by
  rw [lastSetting, List.findSome?_eq_none_iff]
  intro o _
  cases o <;> rfl

/-- The variables as the script leaves them. -/
theorem launched_env (hname : name ∉ ownVariables) (hpreload : name ≠ ascii "LD_PRELOAD") :
    launcherEnv (launcherState scriptDir isFile env opts) name =
      (lastSetting name opts).or (inherited env name) := by
  have hioctl := @env_launcherState scriptDir isFile env opts (ascii "NVSCOPE_IOCTL") (by decide)
  have hlegacy := @env_launcherState scriptDir isFile env opts (ascii "NV_VIDEO_FIX_IOCTL") (by decide)
  rw [lastSetting_legacy, Option.none_or] at hlegacy
  rw [launcherEnv, put_apply, if_neg hpreload, hioctl, hlegacy]
  by_cases hunset : (lastSetting (ascii "NVSCOPE_IOCTL") opts).or (env (ascii "NVSCOPE_IOCTL")) = none ∧
      env (ascii "NV_VIDEO_FIX_IOCTL") = none
  · obtain ⟨hlast, henv⟩ := Option.or_eq_none_iff.mp hunset.1
    rw [if_pos hunset, put_apply, inherited]
    by_cases heq : name = ascii "NVSCOPE_IOCTL"
    · rw [if_pos heq, if_pos ⟨heq, henv, hunset.2⟩, heq, hlast, Option.none_or]
    · rw [if_neg heq, if_neg fun h => heq h.1, env_launcherState hname]
  · rw [if_neg hunset, env_launcherState hname, inherited]
    by_cases hdefault : name = ascii "NVSCOPE_IOCTL" ∧ env (ascii "NVSCOPE_IOCTL") = none ∧
        env (ascii "NV_VIDEO_FIX_IOCTL") = none
    · obtain ⟨rfl, hnone, hnone'⟩ := hdefault
      -- an option says what the environment does not
      cases hlast : lastSetting (ascii "NVSCOPE_IOCTL") opts with
      | none => exact absurd ⟨by rw [hlast, hnone]; rfl, hnone'⟩ hunset
      | some value => rw [Option.some_or, Option.some_or]
    · rw [if_neg hdefault]

/-! ## The configuration -/

/-- The configuration that options and environment ask for. -/
def configured (opts : List LauncherOption) (env : Environ) : Config :=
  let given := configLoad env
  let uuid := lastSetting (ascii "NVSCOPE_GPU_UUID") opts
  { traceEnabled := decide (.trace ∈ opts) || given.traceEnabled
    procFilterEnabled := decide (.noProc ∉ opts) && given.procFilterEnabled
    ioctlFilterEnabled := decide (.noIoctl ∉ opts) &&
      (decide (env (ascii "NVSCOPE_IOCTL") = none ∧ env (ascii "NV_VIDEO_FIX_IOCTL") = none) ||
        given.ioctlFilterEnabled)
    gpuUuidSet := uuid.elim given.gpuUuidSet (· != [])
    gpuUuid := uuid.elim given.gpuUuid (·.take (gpuUuidMax - 1)) }

/-- A variable that one option sets, to one value. -/
theorem lastSetting_eq_ite {o : LauncherOption} {value : CStr}
    (h : ∀ o' : LauncherOption, o'.setting name = if o' = o then some value else none) :
    lastSetting name opts = if o ∈ opts then some value else none := by
  have hfind : ∀ os : List LauncherOption, os.findSome? (LauncherOption.setting name) =
      if o ∈ os then some value else none := by
    intro os
    induction os with
    | nil => rfl
    | cons o' os ih =>
        rw [List.findSome?_cons, h o', ih]
        by_cases heq : o' = o
        · rw [if_pos heq, if_pos (List.mem_cons.mpr (Or.inl heq.symm))]
        · have hmem : o ∈ o' :: os ↔ o ∈ os := by
            rw [List.mem_cons]
            exact ⟨fun hor => hor.resolve_left (Ne.symm heq), Or.inr⟩
          simp only [heq, ↓reduceIte, hmem]
  rw [lastSetting, hfind]
  simp only [List.mem_reverse]

theorem lastSetting_trace :
    lastSetting (ascii "NVSCOPE_TRACE") opts = if .trace ∈ opts then some (ascii "1") else none :=
  lastSetting_eq_ite fun o => by cases o <;> rfl

theorem lastSetting_noProc :
    lastSetting (ascii "NVSCOPE_PROC") opts = if .noProc ∈ opts then some (ascii "0") else none :=
  lastSetting_eq_ite fun o => by cases o <;> rfl

theorem lastSetting_noIoctl :
    lastSetting (ascii "NVSCOPE_IOCTL") opts = if .noIoctl ∈ opts then some (ascii "0") else none :=
  lastSetting_eq_ite fun o => by cases o <;> rfl

theorem lastSetting_none (h : ∀ o : LauncherOption, o.setting name = none) : lastSetting name opts = none := by
  rw [lastSetting, List.findSome?_eq_none_iff]
  exact fun o _ => h o

theorem getenvAlias_eq (env : Environ) (primary legacy : CStr) :
    getenvAlias env primary legacy = (env primary).or (env legacy) := by
  rw [getenvAlias]
  cases env primary <;> rfl

theorem inherited_of_ne (h : name ≠ ascii "NVSCOPE_IOCTL") : inherited env name = env name :=
  if_neg fun hdefault => h hdefault.1

/-- A variable and its older name, of which the options set the first one only. -/
theorem alias_launched {primary legacy : CStr} (hset : ∀ o : LauncherOption, o.setting legacy = none)
    (hprimary : primary ∉ ownVariables ∧ primary ≠ ascii "LD_PRELOAD")
    (hlegacy : legacy ∉ ownVariables ∧ legacy ≠ ascii "LD_PRELOAD" ∧ legacy ≠ ascii "NVSCOPE_IOCTL") :
    getenvAlias (launcherEnv (launcherState scriptDir isFile env opts)) primary legacy =
      (lastSetting primary opts).or ((inherited env primary).or (env legacy)) := by
  rw [getenvAlias_eq, launched_env hprimary.1 hprimary.2, launched_env hlegacy.1 hlegacy.2.1, lastSetting_none hset,
    Option.none_or, inherited_of_ne hlegacy.2.2, Option.or_assoc]

theorem configLoad_congr (h : ∀ name ∈ configVariables, env' name = env name) : configLoad env' = configLoad env := by
  simp only [configVariables, List.mem_cons, List.not_mem_nil, or_false, forall_eq_or_imp, forall_eq] at h
  obtain ⟨htrace, htrace', hioctl, hioctl', hproc, hproc', huuid, huuid'⟩ := h
  simp only [configLoad, getenvAlias_eq, htrace, htrace', hioctl, hioctl', hproc, hproc', huuid, huuid']

theorem config_apart : ∀ name ∈ configVariables, name ∉ ownVariables ∧ name ≠ ascii "LD_PRELOAD" := by
  decide

theorem mem_launcherVariables_of_config (h : name ∈ configVariables) : name ∈ launcherVariables :=
  List.mem_append_left _ h

theorem configLoad_handsOn (shell : Shell) (env : Environ) : configLoad (shell.handsOn env) = configLoad env :=
  configLoad_congr fun _ h => (shell.keeps_of_mem (mem_launcherVariables_of_config h)).handsOn env

/-- The library is configured by a launched command's environment as options and environment ask. -/
theorem configLoad_launched :
    configLoad (shell.handsOn (launcherEnv (launcherState scriptDir isFile env opts))) = configured opts env := by
  rw [configLoad_handsOn]
  have htrace := @alias_launched scriptDir isFile env opts (ascii "NVSCOPE_TRACE") (ascii "NV_VIDEO_FIX_TRACE")
    (fun o => by cases o <;> rfl) (by decide) (by decide)
  have hioctl := @alias_launched scriptDir isFile env opts (ascii "NVSCOPE_IOCTL") (ascii "NV_VIDEO_FIX_IOCTL")
    (fun o => by cases o <;> rfl) (by decide) (by decide)
  have hproc := @alias_launched scriptDir isFile env opts (ascii "NVSCOPE_PROC") (ascii "NV_VIDEO_FIX_PROC")
    (fun o => by cases o <;> rfl) (by decide) (by decide)
  have huuid := @alias_launched scriptDir isFile env opts (ascii "NVSCOPE_GPU_UUID") (ascii "NV_VIDEO_FIX_GPU_UUID")
    (fun o => by cases o <;> rfl) (by decide) (by decide)
  rw [inherited_of_ne (by decide), ← getenvAlias_eq] at htrace hproc huuid
  rw [lastSetting_trace] at htrace
  rw [lastSetting_noIoctl] at hioctl
  rw [lastSetting_noProc] at hproc
  simp only [configLoad, configured, htrace, hioctl, hproc, huuid, Config.mk.injEq]
  refine ⟨?_, ?_, ?_, ?_, ?_⟩
  · by_cases h : LauncherOption.trace ∈ opts
    · simp only [h, ↓reduceIte, Option.some_or, decide_true, Bool.true_or]
      decide
    · simp only [h, ↓reduceIte, Option.none_or, decide_false, Bool.false_or]
  · by_cases h : LauncherOption.noProc ∈ opts
    · simp only [h, ↓reduceIte, Option.some_or, not_true_eq_false, decide_false, Bool.false_and]
      decide
    · simp only [h, ↓reduceIte, Option.none_or, not_false_eq_true, decide_true, Bool.true_and]
  · by_cases h : LauncherOption.noIoctl ∈ opts
    · simp only [h, ↓reduceIte, Option.some_or, not_true_eq_false, decide_false, Bool.false_and]
      decide
    · simp only [h, ↓reduceIte, Option.none_or, not_false_eq_true, decide_true, Bool.true_and]
      by_cases hunset : env (ascii "NVSCOPE_IOCTL") = none ∧ env (ascii "NV_VIDEO_FIX_IOCTL") = none
      · rw [inherited, if_pos ⟨rfl, hunset⟩, decide_eq_true hunset, Bool.true_or]
        rfl
      · rw [inherited, if_neg fun hdefault => hunset hdefault.2, decide_eq_false hunset, Bool.false_or,
          getenvAlias_eq]
  · cases lastSetting (ascii "NVSCOPE_GPU_UUID") opts <;> rfl
  · cases lastSetting (ascii "NVSCOPE_GPU_UUID") opts <;> rfl

/-! ## The library -/

def LauncherOption.path : LauncherOption → Option CStr
  | .lib path => some path
  | _ => none

def lastPath (opts : List LauncherOption) : Option CStr :=
  opts.reverse.findSome? LauncherOption.path

/-- The library without `--lib`. -/
def defaultLib (scriptDir : CStr) (isFile : CStr → Bool) (env : Environ) : CStr :=
  let given := (env (ascii "NVSCOPE_LIB")).getD []
  if given = [] then if isFile (sourceLib scriptDir) then sourceLib scriptDir else installedLib else given

theorem lastPath_append (opts opts' : List LauncherOption) :
    lastPath (opts ++ opts') = (lastPath opts').or (lastPath opts) := by
  rw [lastPath, List.reverse_append, List.findSome?_append]
  rfl

theorem lib_launcherStart : (launcherStart scriptDir isFile env).lib = defaultLib scriptDir isFile env := by
  have hgiven : ((((env.assign (ascii "script_dir") scriptDir).assign (ascii "source_lib") (sourceLib scriptDir)).assign
      (ascii "installed_lib") installedLib) (ascii "NVSCOPE_LIB")) = env (ascii "NVSCOPE_LIB") := by
    rw [assign_of_ne (by decide), assign_of_ne (by decide), assign_of_ne (by decide)]
  simp only [launcherStart, defaultLib, hgiven, LauncherState.setLib]
  by_cases hnil : (env (ascii "NVSCOPE_LIB")).getD [] = []
  · rw [if_pos hnil, if_pos hnil]
  · rw [if_neg hnil, if_neg hnil]

theorem lib_launcherState :
    (launcherState scriptDir isFile env opts).lib = (lastPath opts).getD (defaultLib scriptDir isFile env) := by
  have hfold : ∀ (opts : List LauncherOption) (st : LauncherState),
      (opts.foldl LauncherOption.apply st).lib = (lastPath opts).getD st.lib := by
    intro opts
    induction opts with
    | nil => exact fun st => rfl
    | cons o opts ih =>
        intro st
        have hcons : lastPath (o :: opts) = (lastPath opts).or o.path := by
          have happ := lastPath_append [o] opts
          rw [List.singleton_append] at happ
          rw [happ]
          cases hpath : o.path <;> simp [lastPath, hpath]
        rw [List.foldl_cons, ih, hcons]
        cases lastPath opts with
        | some path => rfl
        | none => cases o <;> rfl
  rw [launcherState, hfold, lib_launcherStart]

theorem preload_launched : launcherEnv (launcherState scriptDir isFile env opts) (ascii "LD_PRELOAD") =
    some (if (env (ascii "LD_PRELOAD")).getD [] = [] then (launcherState scriptDir isFile env opts).lib
      else (launcherState scriptDir isFile env opts).lib ++ ascii ":" ++ (env (ascii "LD_PRELOAD")).getD []) := by
  have hnone : lastSetting (ascii "LD_PRELOAD") opts = none := lastSetting_none fun o => by cases o <;> rfl
  have hbefore := @env_launcherState scriptDir isFile env opts (ascii "LD_PRELOAD") (by decide)
  rw [hnone, Option.none_or] at hbefore
  have hdefault : ascii "LD_PRELOAD" ≠ ascii "NVSCOPE_IOCTL" := by decide
  simp only [launcherEnv, put_apply, ↓reduceIte]
  split
  · rw [put_apply, if_neg hdefault, hbefore]
  · rw [hbefore]

/-! ## One launcher -/

/-- A command that is executed stands at the end of the arguments, behind options that may be closed by `--`.
Its environment configures the library as options and environment ask, puts an existing library in front of
`LD_PRELOAD`, and is otherwise the one the launcher was given, in all variables that are neither the shell's own nor
the script's. -/
theorem launched_config {args command : List CStr}
    (h : nvscope shell scriptDir isFile env args = .exec env' command) :
    ∃ (opts : List LauncherOption) (sep : List CStr), args = opts.flatMap LauncherOption.words ++ (sep ++ command) ∧
      (sep = [] ∨ sep = [ascii "--"]) ∧ configLoad env' = configured opts env ∧
      (∃ lib, lib = (lastPath opts).getD (defaultLib scriptDir isFile env) ∧ isFile lib = true ∧
        env' (ascii "LD_PRELOAD") = some (if (env (ascii "LD_PRELOAD")).getD [] = [] then lib
          else lib ++ ascii ":" ++ (env (ascii "LD_PRELOAD")).getD [])) ∧
      ∀ name, shell.Keeps name → name ∉ ownVariables → name ≠ ascii "LD_PRELOAD" →
        env' name = (lastSetting name opts).or (inherited env name) := by
  obtain ⟨opts, rest, rfl, hend, -, hfile, rfl⟩ := nvscope_exec.mp h
  obtain ⟨sep, rfl, hsep⟩ := hend.sep_of_command
  refine ⟨opts, sep, rfl, hsep, configLoad_launched, ⟨_, lib_launcherState, hfile, ?_⟩, ?_⟩
  · rw [(shell.keeps_of_mem (by decide)).handsOn]
    exact preload_launched
  · intro name hkeeps hown hpreload
    rw [hkeeps.handsOn]
    exact launched_env hown hpreload

/-- What `dash` makes of an environment in the directory `cwd`, where of its own variables only `PWD` and `IFS` may
be set. -/
def dashHandsOn (cwd : CStr) (env : Environ) : Environ := fun name =>
  if name = ascii "PWD" then some cwd
  else if name = ascii "IFS" then (env name).map fun _ => ascii " \t\n"
  else if isVariableName name then env name
  else none

theorem dashHandsOn_of_not_mem {cwd : CStr} (hname : isVariableName name = true)
    (hown : name ∉ [ascii "PWD", ascii "IFS"]) : dashHandsOn cwd env name = env name := by
  simp only [List.mem_cons, List.not_mem_nil, or_false, not_or] at hown
  rw [dashHandsOn, if_neg hown.1, if_neg hown.2, if_pos hname]

theorem launcherVariables_apart : ∀ name ∈ launcherVariables, name ∉ [ascii "PWD", ascii "IFS"] := by
  decide

def dash (cwd : CStr) : Shell where
  own := [ascii "PWD", ascii "IFS"]
  handsOn := dashHandsOn cwd
  kept _ _ := dashHandsOn_of_not_mem
  apart := launcherVariables_apart

/-- Nothing is set but the older name of the switch for the ioctl filter. -/
def olderEnviron : Environ :=
  Environ.put (fun _ => none) (ascii "NV_VIDEO_FIX_IOCTL") (ascii "on")

/-- The launcher where every file exists. -/
def launchOlder (args : List CStr) : Launch :=
  nvscope (dash (ascii "/root")) (ascii "/usr/bin") (fun _ => true) olderEnviron args

/-- The `--trace` behind the command is the command's. -/
theorem launched_config_ffmpeg :
    ∃ env', launchOlder [ascii "--gpu-uuid", ascii "GPU-5", ascii "ffmpeg", ascii "--trace"] =
        .exec env' [ascii "ffmpeg", ascii "--trace"] ∧
      ∃ (opts : List LauncherOption) (sep : List CStr),
        [ascii "--gpu-uuid", ascii "GPU-5", ascii "ffmpeg", ascii "--trace"] =
          opts.flatMap LauncherOption.words ++ (sep ++ [ascii "ffmpeg", ascii "--trace"]) ∧
        configLoad env' = configured opts olderEnviron := by
  have hexec : ∃ env', launchOlder [ascii "--gpu-uuid", ascii "GPU-5", ascii "ffmpeg", ascii "--trace"] =
      .exec env' [ascii "ffmpeg", ascii "--trace"] := ⟨_, rfl⟩
  obtain ⟨env', henv⟩ := hexec
  obtain ⟨opts, sep, hargs, -, hconfig, -⟩ := launched_config henv
  exact ⟨env', henv, opts, sep, hargs, hconfig⟩

example : configured [.gpuUuid (ascii "GPU-4"), .gpuUuid []] olderEnviron =
    { procFilterEnabled := true, ioctlFilterEnabled := true } := by
  decide

/-! ## A launcher inside a launcher -/

/-- What the shell hands on is inherited as it was. -/
theorem inherited_handsOn (h : shell.Keeps name) (env : Environ) :
    inherited (shell.handsOn env) name = inherited env name := by
  rw [inherited, inherited, h.handsOn, (shell.keeps_of_mem (by decide)).handsOn,
    (shell.keeps_of_mem (by decide)).handsOn]

/-- What a launched command inherits is settled. -/
theorem inherited_launched : inherited (launcherEnv (launcherState scriptDir isFile env opts)) name =
    launcherEnv (launcherState scriptDir isFile env opts) name := by
  rw [inherited]
  refine if_neg ?_
  rintro ⟨rfl, hioctl, hlegacy⟩
  rw [launched_env (by decide) (by decide)] at hioctl hlegacy
  rw [lastSetting_legacy, Option.none_or, inherited_of_ne (by decide)] at hlegacy
  have hnone := (Option.or_eq_none_iff.mp hioctl).2
  rw [inherited] at hnone
  split at hnone
  · cases hnone
  · rename_i hset
    exact hset ⟨rfl, hnone, hlegacy⟩

/-- A launcher that launches itself with more options: the command is executed as by one launcher with the options
of both, with the same configuration and, but for `LD_PRELOAD`, the variables the script keeps for itself and those
that a shell does not leave as they are, the same environment. -/
theorem nested_launch {shell' shell'' : Shell} {opts' : List LauncherOption} {self : CStr} {command : List CStr}
    {env'' : Environ}
    (h : nvscope shell scriptDir isFile env (opts.flatMap LauncherOption.words ++
        ascii "--" :: self :: (opts'.flatMap LauncherOption.words ++ ascii "--" :: command)) =
      .exec env' (self :: (opts'.flatMap LauncherOption.words ++ ascii "--" :: command)))
    (h' : nvscope shell' scriptDir isFile env' (opts'.flatMap LauncherOption.words ++ ascii "--" :: command) =
      .exec env'' command) :
    ∃ merged, nvscope shell'' scriptDir isFile env
        ((opts ++ opts').flatMap LauncherOption.words ++ ascii "--" :: command) = .exec merged command ∧
      configLoad env'' = configLoad merged ∧
      ∀ name, shell.Keeps name → shell'.Keeps name → shell''.Keeps name → name ∉ ownVariables →
        name ≠ ascii "LD_PRELOAD" → env'' name = merged name := by
  rw [nvscope_of_reading (.separator _)] at h h'
  obtain ⟨-, hfile, rfl, -⟩ := launcherExec_eq_exec.mp h
  obtain ⟨hne, hfile', rfl, -⟩ := launcherExec_eq_exec.mp h'
  have hlib : isFile (launcherState scriptDir isFile env (opts ++ opts')).lib = true := by
    rw [lib_launcherState] at hfile hfile' ⊢
    rw [lastPath_append]
    cases hlast : lastPath opts' with
    | some path =>
        rw [hlast] at hfile'
        exact hfile'
    | none => exact hfile
  have hsame : ∀ name, shell.Keeps name → shell'.Keeps name → shell''.Keeps name → name ∉ ownVariables →
      name ≠ ascii "LD_PRELOAD" →
      shell'.handsOn (launcherEnv (launcherState scriptDir isFile
          (shell.handsOn (launcherEnv (launcherState scriptDir isFile env opts))) opts')) name =
        shell''.handsOn (launcherEnv (launcherState scriptDir isFile env (opts ++ opts'))) name := by
    intro name hkeeps hkeeps' hkeeps'' hown hpreload
    rw [hkeeps'.handsOn, hkeeps''.handsOn, launched_env hown hpreload, launched_env hown hpreload,
      inherited_handsOn hkeeps, inherited_launched, launched_env hown hpreload, lastSetting_append, Option.or_assoc]
  refine ⟨_, ?_, configLoad_congr fun name hname => ?_, hsame⟩
  · rw [nvscope_of_reading (.separator _)]
    exact launcherExec_eq_exec.mpr ⟨hne, hlib, rfl, rfl⟩
  · have hmem := mem_launcherVariables_of_config hname
    obtain ⟨hown, hpreload⟩ := config_apart name hname
    exact hsame name (shell.keeps_of_mem hmem) (shell'.keeps_of_mem hmem) (shell''.keeps_of_mem hmem) hown hpreload

/-- `--no-proc` outside and `--trace` inside hold both. -/
theorem nested_launch_two : ∃ env' env'' merged,
    launchOlder (ascii "--no-proc" :: ascii "--" :: ascii "nvscope" :: [ascii "--trace", ascii "--", ascii "ffmpeg"]) =
      .exec env' (ascii "nvscope" :: [ascii "--trace", ascii "--", ascii "ffmpeg"]) ∧
    nvscope (dash (ascii "/root")) (ascii "/usr/bin") (fun _ => true) env'
        [ascii "--trace", ascii "--", ascii "ffmpeg"] =
      .exec env'' [ascii "ffmpeg"] ∧
    launchOlder [ascii "--no-proc", ascii "--trace", ascii "--", ascii "ffmpeg"] = .exec merged [ascii "ffmpeg"] ∧
    configLoad env'' = configLoad merged := by
  have houter : ∃ env', nvscope (dash (ascii "/root")) (ascii "/usr/bin") (fun _ => true) olderEnviron
      ([LauncherOption.noProc].flatMap LauncherOption.words ++
        ascii "--" :: ascii "nvscope" :: ([LauncherOption.trace].flatMap LauncherOption.words ++
          ascii "--" :: [ascii "ffmpeg"])) =
      .exec env' (ascii "nvscope" :: ([LauncherOption.trace].flatMap LauncherOption.words ++
        ascii "--" :: [ascii "ffmpeg"])) := ⟨_, rfl⟩
  obtain ⟨env', henv'⟩ := houter
  have hinner : ∃ env'', nvscope (dash (ascii "/root")) (ascii "/usr/bin") (fun _ => true) env'
      ([LauncherOption.trace].flatMap LauncherOption.words ++ ascii "--" :: [ascii "ffmpeg"]) =
      .exec env'' [ascii "ffmpeg"] := ⟨_, rfl⟩
  obtain ⟨env'', henv''⟩ := hinner
  obtain ⟨merged, hmerged, hconfig, -⟩ := nested_launch henv' henv''
  exact ⟨env', env'', merged, henv', henv'', hmerged, hconfig⟩

end Nvscope
