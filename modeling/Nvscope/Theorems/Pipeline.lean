import Nvscope.Theorems.Decision
import Nvscope.Theorems.Detection
import Nvscope.Theorems.Launched
import Nvscope.Theorems.Learning

/-!
# From the command line to what a command is shown

The arguments of the launcher, the environment, the directories and files of the host and the mounted device nodes
decide together which information files and which cards the command sees.
-/

namespace Nvscope

open Lib

variable {shell : Shell} {scriptDir : CStr} {isFile : CStr → Bool} {env env' : Environ} {args command : List CStr}

/-- The GPUs that stay visible: the first 32 present ones with a mounted node and the configured UUID. -/
def shownGpus (cfg : Config) (infos : List GpuInfo) (mountedMinors : List Int32) : List GpuInfo :=
  (selected infos mountedMinors (if cfg.gpuUuidSet then some cfg.gpuUuid else none)).take maxGpus

/-- The filters are on: the configuration asks for it and a GPU is selected. -/
def Filtering (cfg : Config) (infos : List GpuInfo) (mountedMinors : List Int32) : Prop :=
  cfg.procFilterEnabled = true ∧ shownGpus cfg infos mountedMinors ≠ []

instance (cfg : Config) (infos : List GpuInfo) (mountedMinors : List Int32) :
    Decidable (Filtering cfg infos mountedMinors) :=
  inferInstanceAs (Decidable (_ ∧ _))

/-! ## The start of the library -/

section

variable {cfg : Config} {infos : List GpuInfo} {mountedMinors : List Int32}

theorem ready_iff_filtering : (nvfixConstructor cfg (selection infos mountedMinors)).procFilterReady = true ↔
    Filtering cfg infos mountedMinors := by
  rw [Filtering, nvfixConstructor]
  cases hon : cfg.procFilterEnabled with
  | false => exact ⟨fun h => absurd h Bool.false_ne_true, fun h => absurd h.1 Bool.false_ne_true⟩
  | true =>
      rw [if_pos rfl]
      exact (buildAllowedGpus_valid_iff _ _ _).trans ⟨fun h => ⟨rfl, h⟩, fun h => h.2⟩

/-- The allowed set of a library that filters. -/
theorem allowed_of_filtering (h : Filtering cfg infos mountedMinors) :
    (nvfixConstructor cfg (selection infos mountedMinors)).allowed.valid = true ∧
      (nvfixConstructor cfg (selection infos mountedMinors)).allowed.gpus = shownGpus cfg infos mountedMinors := by
  rw [nvfixConstructor, if_pos h.1]
  exact ⟨(buildAllowedGpus_valid_iff _ _ _).mpr h.2, buildAllowedGpus_gpus infos⟩

theorem config_nvfixConstructor : (nvfixConstructor cfg (selection infos mountedMinors)).config = cfg := by
  rw [nvfixConstructor]
  split <;> rfl

theorem procDenied_started (path : CStr) :
    procDenied (nvfixConstructor cfg (selection infos mountedMinors)) (some path) = true ↔
      Filtering cfg infos mountedMinors ∧ ∃ b, path = informationPath b ∧ IsBusId b ∧
        ∀ g ∈ shownGpus cfg infos mountedMinors, g.busId ≠ b := by
  have habs : ∀ b, pathIsAbsolute (some (informationPath b)) = true := fun b => by
    simp [pathIsAbsolute, head_informationPath]
  rw [procDenied, Bool.and_eq_true, Bool.and_eq_true, ready_iff_filtering, beq_iff_eq, procPathAllowed_deny_iff]
  constructor
  · rintro ⟨⟨hfilter, -⟩, -, b, hpath, hb, hno⟩
    rw [(allowed_of_filtering hfilter).2] at hno
    exact ⟨hfilter, b, hpath, hb, hno⟩
  · rintro ⟨hfilter, b, rfl, hb, hno⟩
    refine ⟨⟨hfilter, habs b⟩, (allowed_of_filtering hfilter).1, b, rfl, hb, ?_⟩
    rw [(allowed_of_filtering hfilter).2]
    exact hno

theorem allowedMinor_started (hfilter : Filtering cfg infos mountedMinors) (minor : UInt32) :
    AllowedMinor (some (nvfixConstructor cfg (selection infos mountedMinors)).allowed) minor ↔
      ∃ g ∈ shownGpus cfg infos mountedMinors, g.deviceMinor.toInt = minor.toNat := by
  obtain ⟨hvalid, hgpus⟩ := allowed_of_filtering hfilter
  constructor
  · rintro ⟨a, ha, -, g, hg, -, hminor⟩
    cases ha
    rw [hgpus] at hg
    exact ⟨g, hg, hminor⟩
  · rintro ⟨g, hg, hminor⟩
    have hpresent : g.present = true := (of_decide_eq_true (List.mem_filter.mp (List.mem_of_mem_take hg)).2).1
    exact ⟨_, rfl, hvalid, g, by rw [hgpus]; exact hg, hpresent, hminor⟩

/-- A valid card of a CARD_INFO response is hidden where both filters are on and no visible GPU has its minor. -/
theorem card_started (learned : LearnedIds) (arg : IoctlArg) :
    let sh := nvfixConstructor cfg (selection infos mountedMinors)
    ∃ after, (ioctlFilterAfter (some sh.config) (if sh.procFilterReady then some sh.allowed else none)
        cardInfoRequest (some arg) 0 learned).2 = some after ∧
      ∀ i, ((Layouts.cards.get arg.mem).get i).valid ≠ 0 →
        (((Layouts.cards.get after.mem).get i).valid = 0 ↔
          cfg.ioctlFilterEnabled = true ∧ Filtering cfg infos mountedMinors ∧
            ∀ g ∈ shownGpus cfg infos mountedMinors,
              g.deviceMinor.toInt ≠ ((Layouts.cards.get arg.mem).get i).minorNumber.toNat) := by
  intro sh
  have hcfg : sh.config = cfg := config_nvfixConstructor
  have hanswer := @ioctlFilterAfter_cardInfo (some sh.config) (if sh.procFilterReady then some sh.allowed else none)
    learned cardInfoRequest arg (by simp [requestIsCardInfo])
  rw [hanswer]
  refine ⟨_, rfl, fun i hi => ?_⟩
  simp only [Option.map_some, Option.getD_some, hcfg]
  cases hon : cfg.ioctlFilterEnabled with
  | false =>
      rw [if_neg Bool.false_ne_true]
      exact ⟨fun h => absurd h hi, fun h => absurd h.1 Bool.false_ne_true⟩
  | true =>
      rw [if_pos rfl]
      by_cases hfilter : Filtering cfg infos mountedMinors
      · have hready : sh.procFilterReady = true := ready_iff_filtering.mpr hfilter
        have hminor := allowedMinor_started hfilter ((Layouts.cards.get arg.mem).get i).minorNumber
        rw [if_pos hready, filterCardInfo_of_valid ⟨_, rfl, (allowed_of_filtering hfilter).1⟩, Layout.get_put,
          List.Vector.get_map]
        by_cases hallowed : AllowedMinor (some sh.allowed) ((Layouts.cards.get arg.mem).get i).minorNumber
        · obtain ⟨g, hg, heq⟩ := hminor.mp hallowed
          rw [hideCard_of_allowed hallowed]
          exact ⟨fun h => absurd h hi, fun h => absurd heq (h.2.2 g hg)⟩
        · rw [hideCard_of_not_allowed hallowed]
          exact ⟨fun _ => ⟨rfl, hfilter, fun g hg heq => hallowed (hminor.mpr ⟨g, hg, heq⟩)⟩, fun _ => rfl⟩
      · have hready : ¬ sh.procFilterReady = true := fun h => hfilter (ready_iff_filtering.mp h)
        rw [if_neg hready, filterCardInfo]
        exact ⟨fun h => absurd h hi, fun h => absurd h.2.1 hfilter⟩

end

/-! ## A launched command -/

/-- For every command line and environment, and however the kernel delivers the directories and files of the host:
a command that is launched is refused exactly the information files of the GPUs that are not to be shown, where
the options leave the proc filter on and a GPU is to be shown; and it gets a card marked invalid exactly where the
options leave both filters on, a GPU is to be shown and none that is has the card's minor. -/
theorem launched_command_sees {host : Host} {dev gpus : List DirentRecord} {contents : CStr → Option CStr}
    (hdev : Lists (host.dir (ascii "/dev")) dev) (hgpus : Lists (host.dir gpusDir) gpus)
    (hfiles : Holds host contents) (locals : Locals) {runtimeInit : Option CStr → Bool × AllowedGpus}
    (hinit : ∀ explicitUuid, procFilterRuntimeInit host locals explicitUuid = some (runtimeInit explicitUuid))
    (h : nvscope shell scriptDir isFile env args = .exec env' command) :
    ∃ (opts : List LauncherOption) (sep : List CStr), args = opts.flatMap LauncherOption.words ++ (sep ++ command) ∧
      (sep = [] ∨ sep = [ascii "--"]) ∧
      let cfg := configured opts env
      let infos := detectedInfos contents gpus
      let minors := detectedMinors dev
      let sh := nvfixConstructor (configLoad env') runtimeInit
      (∀ path, procDenied sh (some path) = true ↔ Filtering cfg infos minors ∧
        ∃ b, path = informationPath b ∧ IsBusId b ∧ ∀ g ∈ shownGpus cfg infos minors, g.busId ≠ b) ∧
      ∀ learned arg, ∃ after,
        (ioctlFilterAfter (some sh.config) (if sh.procFilterReady then some sh.allowed else none) cardInfoRequest
          (some arg) 0 learned).2 = some after ∧
        ∀ i, ((Layouts.cards.get arg.mem).get i).valid ≠ 0 →
          (((Layouts.cards.get after.mem).get i).valid = 0 ↔ cfg.ioctlFilterEnabled = true ∧
            Filtering cfg infos minors ∧ ∀ g ∈ shownGpus cfg infos minors,
              g.deviceMinor.toInt ≠ ((Layouts.cards.get arg.mem).get i).minorNumber.toNat) := by
  obtain ⟨opts, rest, rfl, hend, -, -, rfl⟩ := nvscope_exec.mp h
  obtain ⟨sep, rfl, hsep⟩ := hend.sep_of_command
  refine ⟨opts, sep, rfl, hsep, ?_⟩
  intro cfg infos minors sh
  have hsh : sh = nvfixConstructor cfg (selection infos minors) := by
    have hstart := nvfixConstructor_detected hdev hgpus hfiles locals hinit
      (configLoad (shell.handsOn (launcherEnv (launcherState scriptDir isFile env opts))))
    rw [configLoad_launched] at hstart
    rw [← hstart, ← configLoad_launched]
  rw [hsh]
  exact ⟨procDenied_started, fun learned arg => card_started learned arg⟩

/-- With nothing set and no options, the GPU whose file cannot be read is hidden. -/
theorem launched_command_sees_splitHost : ∃ env',
    nvscope (dash (ascii "/root")) (ascii "/usr/bin") (fun _ => true) (fun _ => none) [ascii "ffmpeg"] =
        .exec env' [ascii "ffmpeg"] ∧
      procDenied (nvfixConstructor (configLoad env')
        (selection (detectedInfos splitContents splitGpus.flatten) (detectedMinors splitDev.flatten)))
        (some (informationPath (ascii "0000:0b:00.0"))) = true := by
  have hexec : ∃ env', nvscope (dash (ascii "/root")) (ascii "/usr/bin") (fun _ => true) (fun _ => none)
      [ascii "ffmpeg"] = .exec env' [ascii "ffmpeg"] := ⟨_, rfl⟩
  obtain ⟨env', henv⟩ := hexec
  have hdev : Lists (splitHost.dir (ascii "/dev")) splitDev.flatten := .opened (by decide +kernel)
  have hgpus : Lists (splitHost.dir gpusDir) splitGpus.flatten := .opened (by decide +kernel)
  obtain ⟨opts, sep, hargs, -, hpaths, -⟩ := launched_command_sees hdev hgpus splitHost_holds blankLocals
    (fun explicitUuid => procFilterRuntimeInit_selection hdev hgpus splitHost_holds blankLocals explicitUuid) henv
  have hopts : opts = [] := by
    have hlen := congrArg List.length hargs
    cases opts with
    | nil => rfl
    | cons o opts => cases o <;> simp [LauncherOption.words] at hlen
  subst hopts
  exact ⟨env', henv, (hpaths _).mpr ⟨by decide +kernel, _, rfl, ⟨by decide, by decide, by decide⟩,
    by decide +kernel⟩⟩

end Nvscope
