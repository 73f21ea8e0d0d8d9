import Nvscope.Lemmas.Steps
import Nvscope.Theorems.Decision
import Nvscope.Theorems.PassThrough
import Nvscope.Theorems.RelativeOpens
import Nvscope.Theorems.RemovesOnly

/-!
# What the shim may do to a program

In any state, the shim stands between the program and libc and no more: it drops calls that name a hidden
information file, it repeats a `readdir`, it shortens a listing and removes from a response. No call reaches
libc that the program did not make, and no answer is made up.
-/

namespace Nvscope

open Lib

variable {K β : Type}

/-- The state of the real functions once they have been handed `notes`. -/
def Libc.replay (libc : Libc K β) (k : K) (notes : List (Invocation OpenArgs β)) : K :=
  run (fun k c => (libc.direct c k).2) k notes

/-- The path names the information file of a GPU outside the allowed set, from the root or from the directory
of the GPUs. -/
def Refusable (a : AllowedGpus) (path : CStr) : Prop :=
  a.valid = true ∧ ((∃ b, path = informationPath b ∧ IsBusId b ∧ ∀ g ∈ a.gpus, g.busId ≠ b) ∨
    path.head? ≠ some slash ∧ NamesHidden a path)

/-- The path a call can be refused for, and the answer to a refused call. -/
def Invocation.refusal : Invocation (UInt32 × UInt32) β → Option CStr × Answer β
  | .openPath _ path _ => (path, .result (-1))
  | .openatPath _ _ path _ => (path, .result (-1))
  | .stat path statbuf => (path, .status (-1) statbuf)
  | .newfstatat _ path statbuf _ => (path, .status (-1) statbuf)
  | .opendir _ path => (path, .stream none)
  | .close _ | .fdopendir _ | .readdir _ _ | .getdents64 _ _ | .ioctl _ _ _ => (none, .result (-1))

/-- Called `n` times in a row, `readdir` answers with names that are filtered out. -/
def Skipped (libc : Libc K β) (a : AllowedGpus) (k : K) (use64 : Bool) (dirp n : Nat) : Prop :=
  ∀ i < n, ∃ name, keepName a name = false ∧
    (libc.direct (.readdir use64 dirp) (libc.replay k (List.replicate i (.readdir use64 dirp)))).1 =
      .entry (some name)

/-- What the shim may make of a call: the program sees `seen`, and libc, in state `k`, is handed `notes`. A call
does not come back where more than `fuel` names in a row are filtered out, or where filtering a listing reads
outside it. -/
inductive Mediates (libc : Libc K β) (fuel : Nat) (a : AllowedGpus) (k : K) (c : Invocation (UInt32 × UInt32) β) :
    Option (Answer β × Option Errno) → List (Invocation OpenArgs β) → Prop where
  | refused {path : CStr} {answer : Answer β} (hrefusal : c.refusal = (some path, answer))
      (h : Refusable a path) : Mediates libc fuel a k c (some (answer, some .enoent)) []
  | passed : Mediates libc fuel a k c (some ((libc.direct c.handed k).1, none)) [c.handed]
  | reread {use64 : Bool} {dirp : Nat} (n : Nat) (hc : c = .readdir use64 dirp)
      (hskipped : Skipped libc a k use64 dirp n) :
      Mediates libc fuel a k c
        (some ((libc.direct (.readdir use64 dirp) (libc.replay k (List.replicate n (.readdir use64 dirp)))).1,
          none))
        (List.replicate (n + 1) (.readdir use64 dirp))
  | shortened {n n' : Int} {buffer buffer' : List UInt8} (hreal : (libc.direct c.handed k).1 = .entries n buffer)
      (h : filterDirent64Buffer buffer n (some a) = some (buffer', n')) :
      Mediates libc fuel a k c (some (.entries n' buffer', none)) [c.handed]
  | removed {fd : Int} {request : UInt64} {sent : Option IoctlArg} {arg arg' : IoctlArg}
      (hc : c = .ioctl fd request sent) (hreal : (libc.direct c.handed k).1 = .control 0 (some arg))
      (h : RemovesOnly request arg arg') :
      Mediates libc fuel a k c (some (.control 0 (some arg'), none)) [c.handed]
  | skipping {use64 : Bool} {dirp : Nat} (hc : c = .readdir use64 dirp)
      (hskipped : Skipped libc a k use64 dirp (fuel + 1)) : Mediates libc fuel a k c none []
  | outside {n : Int} {buffer : List UInt8} (hreal : (libc.direct c.handed k).1 = .entries n buffer)
      (h : filterDirent64Buffer buffer n (some a) = none) : Mediates libc fuel a k c none []

/-- Likewise for a run of calls. -/
inductive MediatedRun (libc : Libc K β) (fuel : Nat) (a : AllowedGpus) :
    K → List (Invocation (UInt32 × UInt32) β) → Seen β → List (Invocation OpenArgs β) → Prop where
  | nil {k : K} : MediatedRun libc fuel a k [] [] []
  | cons {k : K} {c : Invocation (UInt32 × UInt32) β} {calls : List (Invocation (UInt32 × UInt32) β)}
      {seen : Option (Answer β × Option Errno)} {rest : Seen β} {notes notes' : List (Invocation OpenArgs β)}
      (h : Mediates libc fuel a k c seen notes) (hrest : MediatedRun libc fuel a (libc.replay k notes) calls rest notes') :
      MediatedRun libc fuel a k (c :: calls) (seen :: rest) (notes ++ notes')

section

variable {libc : Libc K β} {fuel : Nat} {a : AllowedGpus} {k : K}

@[simp] theorem replay_singleton (c : Invocation OpenArgs β) : libc.replay k [c] = (libc.direct c k).2 := rfl

/-- Only what the program called is handed on. -/
theorem Mediates.mem {c : Invocation (UInt32 × UInt32) β} {seen : Option (Answer β × Option Errno)}
    {notes : List (Invocation OpenArgs β)} (h : Mediates libc fuel a k c seen notes) : ∀ note ∈ notes, note = c.handed := by
  cases h with
  | refused | skipping | outside => exact fun _ hnote => absurd hnote List.not_mem_nil
  | passed | shortened | removed => exact fun _ hnote => List.mem_singleton.mp hnote
  | reread n hc =>
      subst hc
      exact fun _ hnote => List.eq_of_mem_replicate hnote

theorem MediatedRun.mem {calls : List (Invocation (UInt32 × UInt32) β)} {seen : Seen β}
    {notes : List (Invocation OpenArgs β)} (h : MediatedRun libc fuel a k calls seen notes) :
    ∀ note ∈ notes, note ∈ calls.map Invocation.handed := by
  induction h with
  | nil => exact fun _ hnote => absurd hnote List.not_mem_nil
  | cons h _ ih =>
      intro note hnote
      rw [List.map_cons, List.mem_cons]
      exact (List.mem_append.mp hnote).imp (h.mem note) (ih note)

end

/-! ## Refusals -/

section

variable {sh : Shim}

end

/-! ## One call -/

/-- The reply to a call is one the shim may make, and the notes say what libc was handed for it. -/
def Mediating (libc : Libc K β) (fuel : Nat) (sh : Shim) (k : K) (notes : List (Invocation OpenArgs β))
    (c : Invocation (UInt32 × UInt32) β) (r : Reply (K × List (Invocation OpenArgs β)) (Answer β)) : Prop :=
  r.shim.allowed = sh.allowed ∧ ∃ batch, r.os = (libc.replay k batch, notes ++ batch) ∧
    Mediates libc fuel sh.allowed k c (some (r.value, r.errno)) batch

section

variable {libc : Libc K β} {fuel : Nat} {sh sh' : Shim} {k : K} {notes : List (Invocation OpenArgs β)}
  {c : Invocation (UInt32 × UInt32) β}

variable (libc : Libc K β) (fuel : Nat) (sh : Shim) (k : K) (notes : List (Invocation OpenArgs β))

theorem keepName_of_not_allowed {fd : Int} {entry : CStr}
    (h : readdirEntryAllowed sh fd (some entry) = false) : keepName sh.allowed entry = false := by
  simp only [readdirEntryAllowed] at h
  split at h
  · cases h
  · rename_i hlook
    simp only [Bool.or_eq_true, decide_eq_true_eq, Option.some.injEq, not_or] at hlook
    simp [keepName, hlook.1.2, hlook.2, h]

theorem Skipped.succ {use64 : Bool} {dirp n : Nat} {fd : Int} {entry : CStr} {libc : Libc K β} {sh : Shim} {k : K}
    (h : Skipped libc sh.allowed k use64 dirp n) (hhidden : ¬ readdirEntryAllowed sh fd (some entry) = true)
    (hread : (libc.direct (.readdir use64 dirp) (libc.replay k (List.replicate n (.readdir use64 dirp)))).1 =
      .entry (some entry)) : Skipped libc sh.allowed k use64 dirp (n + 1) := by
  intro i hi
  rcases Nat.lt_succ_iff_lt_or_eq.mp hi with hlt | rfl
  · exact h i hlt
  · exact ⟨entry, keepName_of_not_allowed sh (Bool.eq_false_iff.mpr hhidden), hread⟩

/-- The reply to a call, if it comes back, is one the shim may make. -/
def MediatingOr (libc : Libc K β) (fuel : Nat) (sh : Shim) (k : K) (notes : List (Invocation OpenArgs β))
    (c : Invocation (UInt32 × UInt32) β) : Option (Reply (K × List (Invocation OpenArgs β)) (Answer β)) → Prop
  | none => Mediates libc fuel sh.allowed k c none []
  | some r => Mediating libc fuel sh k notes c r

variable {libc fuel sh k notes} in
theorem MediatingOr.of_none {x : Option (Reply (K × List (Invocation OpenArgs β)) (Answer β))} (hx : x = none)
    (h : Mediates libc fuel sh.allowed k c none []) : MediatingOr libc fuel sh k notes c x := by
  rw [hx]
  exact h

variable {fuel sh k notes}

end

end Nvscope
