import Mathlib.Logic.Function.Basic
import Nvscope.Lib.Decimal
import Nvscope.Model.Env

/-!
# The launcher (`tools/nvscope`)

The script reads its options, sets the variables the library looks at and executes the command. The environment
is a function; where the script is, which files there are and which shell runs it come as parameters.
-/

namespace Nvscope

open Lib

abbrev Environ := CStr → Option CStr

namespace Environ

/-- `export name=value`. -/
def put (env : Environ) (name value : CStr) : Environ :=
  Function.update env name (some value)

/-- `name=value`. A variable of the shell is also one of the command where it came from the environment. -/
def assign (env : Environ) (name value : CStr) : Environ :=
  if env name = none then env else env.put name value

end Environ

/-! ## The shell -/

/-- The variables `nvfix_config_load` looks at. -/
def configVariables : List CStr :=
  [ascii "NVSCOPE_TRACE", ascii "NV_VIDEO_FIX_TRACE", ascii "NVSCOPE_IOCTL", ascii "NV_VIDEO_FIX_IOCTL",
    ascii "NVSCOPE_PROC", ascii "NV_VIDEO_FIX_PROC", ascii "NVSCOPE_GPU_UUID", ascii "NV_VIDEO_FIX_GPU_UUID"]

/-- The variables the script keeps for itself; where they came with the environment, it changes them there. -/
def ownVariables : List CStr :=
  [ascii "script_dir", ascii "source_lib", ascii "installed_lib", ascii "lib"]

def launcherVariables : List CStr :=
  configVariables ++ ascii "NVSCOPE_LIB" :: ascii "LD_PRELOAD" :: ownVariables

/-- A letter, a digit or `_`. -/
def isNameByte (c : UInt8) : Bool :=
  isDigit c || c == 95 || decide (65 ≤ c) && decide (c ≤ 90) || decide (97 ≤ c) && decide (c ≤ 122)

/-- What a shell takes for the name of a variable. -/
def isVariableName : CStr → Bool
  | [] => false
  | c :: cs => !isDigit c && (c :: cs).all isNameByte

/-- The shell, in one run of the script. It hands the variables to a command as they are, but for its own, such as
`PWD`, `OLDPWD`, `IFS`, `SHLVL` and `_`, and for those whose name is no name to it. -/
structure Shell where
  own : List CStr
  handsOn : Environ → Environ
  kept : ∀ env name, isVariableName name = true → name ∉ own → handsOn env name = env name
  apart : ∀ name ∈ launcherVariables, name ∉ own

/-- Something printed: an operand of `echo`, in which some shells give backslashes a meaning, or a here-document. -/
inductive Printed where
  | echo (operand : CStr)
  | document (text : CStr)

/-- What the script does in the end. The words of `exec` are the operands of that builtin. -/
inductive Launch where
  | exec (env : Environ) (command : List CStr)
  | exit (status : Nat) (out err : List Printed)

/-- The environment, which is also that of the script, and `$lib`. -/
structure LauncherState where
  env : Environ
  lib : CStr

namespace LauncherState

def put (st : LauncherState) (name value : CStr) : LauncherState :=
  { st with env := st.env.put name value }

/-- `lib=path`. -/
def setLib (st : LauncherState) (path : CStr) : LauncherState :=
  { env := st.env.assign (ascii "lib") path, lib := path }

end LauncherState

def usageText : CStr :=
  ascii "usage: nvscope [options] -- command [args...]\n\n" ++
    ascii "Run a command with nvscope's NVIDIA container topology shim.\n\nOptions:\n" ++
    ascii "  --trace              enable trace logging\n" ++
    ascii "  --no-ioctl           disable experimental RM ioctl topology filtering\n" ++
    ascii "  --no-proc            disable NVIDIA procfs topology filtering\n" ++
    ascii "  --gpu-uuid UUID      restrict filtering to one already-assigned GPU UUID\n" ++
    ascii "  --lib PATH           use a specific libnvscope.so\n" ++
    ascii "  -h, --help           show this help\n\n" ++
    ascii "By default, nvscope enables NVSCOPE_IOCTL=1 for this command only.\n"

def usage : Printed :=
  .document usageText

def installedLib : CStr := ascii "/usr/lib/nvscope/libnvscope.so"

def sourceLib (scriptDir : CStr) : CStr := scriptDir ++ ascii "/../libnvscope.so"

def minus : UInt8 := 45

/-- The lines in front of the loop: `NVSCOPE_LIB` where it is not empty, else the library beside the script, or
the installed one. -/
def launcherStart (scriptDir : CStr) (isFile : CStr → Bool) (env : Environ) : LauncherState :=
  let env := env.assign (ascii "script_dir") scriptDir
  let env := env.assign (ascii "source_lib") (sourceLib scriptDir)
  let env := env.assign (ascii "installed_lib") installedLib
  let given := (env (ascii "NVSCOPE_LIB")).getD []
  let st : LauncherState := LauncherState.setLib ⟨env, []⟩ given
  if given = [] then st.setLib (if isFile (sourceLib scriptDir) then sourceLib scriptDir else installedLib)
  else st

/-- The branches of the `case`. -/
inductive LauncherCase where
  | trace
  | noIoctl
  | noProc
  | gpuUuid
  | lib
  | help
  | separator
  | unknown
  | word

def launcherCase (arg : CStr) : LauncherCase :=
  if arg = ascii "--trace" then .trace
  else if arg = ascii "--no-ioctl" then .noIoctl
  else if arg = ascii "--no-proc" then .noProc
  else if arg = ascii "--gpu-uuid" then .gpuUuid
  else if arg = ascii "--lib" then .lib
  else if arg = ascii "-h" ∨ arg = ascii "--help" then .help
  else if arg = ascii "--" then .separator
  else if arg.head? = some minus then .unknown
  else .word

/-- The `while` loop: the state and the arguments it leaves, unless it ends the script. -/
def launcherOptions : List CStr → LauncherState → Launch ⊕ LauncherState × List CStr
  | [], st => .inr (st, [])
  | arg :: args, st =>
      match launcherCase arg with
      | .trace => launcherOptions args (st.put (ascii "NVSCOPE_TRACE") (ascii "1"))
      | .noIoctl => launcherOptions args (st.put (ascii "NVSCOPE_IOCTL") (ascii "0"))
      | .noProc => launcherOptions args (st.put (ascii "NVSCOPE_PROC") (ascii "0"))
      | .gpuUuid =>
          match args with
          | [] => .inl (.exit 2 [] [.echo (ascii "nvscope: --gpu-uuid requires a value")])
          | uuid :: args => launcherOptions args (st.put (ascii "NVSCOPE_GPU_UUID") uuid)
      | .lib =>
          match args with
          | [] => .inl (.exit 2 [] [.echo (ascii "nvscope: --lib requires a path")])
          | path :: args => launcherOptions args (st.setLib path)
      | .help => .inl (.exit 0 [usage] [])
      | .separator => .inr (st, args)
      | .unknown => .inl (.exit 2 [] [.echo (ascii "nvscope: unknown option: " ++ arg), usage])
      | .word => .inr (st, arg :: args)

/-- The variables as the script leaves them: `NVSCOPE_IOCTL` is set where neither it nor its older name is, and the
library goes to the front of `LD_PRELOAD`. -/
def launcherEnv (st : LauncherState) : Environ :=
  let env := if st.env (ascii "NVSCOPE_IOCTL") = none ∧ st.env (ascii "NV_VIDEO_FIX_IOCTL") = none then
    st.env.put (ascii "NVSCOPE_IOCTL") (ascii "1") else st.env
  let preloaded := (env (ascii "LD_PRELOAD")).getD []
  env.put (ascii "LD_PRELOAD") (if preloaded = [] then st.lib else st.lib ++ ascii ":" ++ preloaded)

/-- The lines behind the loop. -/
def launcherExec (shell : Shell) (isFile : CStr → Bool) (st : LauncherState) (command : List CStr) : Launch :=
  if command = [] then .exit 2 [] [usage]
  else if !isFile st.lib then .exit 1 [] [.echo (ascii "nvscope: libnvscope.so not found at " ++ st.lib)]
  else .exec (shell.handsOn (launcherEnv st)) command

/-- The script. -/
def nvscope (shell : Shell) (scriptDir : CStr) (isFile : CStr → Bool) (env : Environ) (args : List CStr) : Launch :=
  match launcherOptions args (launcherStart scriptDir isFile env) with
  | .inl launch => launch
  | .inr (st, command) => launcherExec shell isFile st command

end Nvscope
