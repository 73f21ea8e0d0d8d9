import Nvscope.Lib.Codes
import Nvscope.Model.Trace
import Nvscope.Theorems.Spelling

/-!
# Reading the trace back

The lines on `stderr` can be read in one way only, whatever bytes the bus ids in the paths hold: spaces, line ends
or the text of another line.
-/

namespace Nvscope

open Lib

/-! ## Fields -/

abbrev space : UInt8 := 32

theorem signedField (w : CStr) (c : UInt8) (hc : c.toNat < 45 ∨ 102 < c.toNat) :
    SelfDelimiting (fun _ : Int => True) fun n => signedNumeral n ++ c :: w :=
  .field (fun _ _ _ _ h => signedNumeral_inj h) fun n _ => not_mem_signedNumeral hc n

theorem numeralField {α : Type} (base : Nat) (toNat : α → Nat) (w : α → CStr) (c : UInt8) (hbase : 1 < base)
    (hmax : base ≤ 16) (hinj : ∀ a a', toNat a = toNat a' → a = a') (hc : c.toNat < 48 ∨ 102 < c.toNat) :
    SelfDelimiting (fun _ : α => True) fun a => numeral base (toNat a) ++ c :: w a :=
  .field (fun _ _ _ _ h => hinj _ _ (numeral_inj hbase hmax h)) fun _ _ => not_mem_numeral hbase hmax hc _

theorem numeralField32 (base : Nat) (w : UInt32 → CStr) (c : UInt8) (hbase : 1 < base) (hmax : base ≤ 16)
    (hc : c.toNat < 48 ∨ 102 < c.toNat) :
    SelfDelimiting (fun _ : UInt32 => True) fun n => numeral base n.toNat ++ c :: w n :=
  numeralField base UInt32.toNat w c hbase hmax (fun _ _ h => UInt32.toNat_inj.mp h) hc

theorem requestField (w : CStr) :
    SelfDelimiting (fun _ : UInt64 => True) fun n => numeral 16 n.toNat ++ space :: w :=
  numeralField 16 UInt64.toNat (fun _ => w) space (by decide) (by decide) (fun _ _ h => UInt64.toNat_inj.mp h)
    (by decide)

theorem pointerField (w : CStr) :
    SelfDelimiting (fun _ : UInt64 => True) fun address => pointerText address ++ space :: w :=
  .field (fun _ _ _ _ h => pointerText_inj h) fun address _ => (not_mem_pointerText address).1

/-- Only information paths may hold a space; the others are told from them by what they start with. -/
theorem Recognised.plain_or {path : CStr} (h : Recognised path) :
    (space ∉ path ∧ ∀ x y, path ++ space :: x ≠ gpusPrefix ++ y) ∨ ∃ b, path = informationPath b ∧ slash ∉ b := by
  cases h with
  | ctl => exact Or.inl ⟨by decide, fun x => append_ne_append (by decide) (by decide) (space :: x)⟩
  | uvm => exact Or.inl ⟨by decide, fun x => append_ne_append (by decide) (by decide) (space :: x)⟩
  | device ds numeral =>
      refine Or.inl ⟨?_, fun x y => ?_⟩
      · rw [List.mem_append, not_or]
        refine ⟨by decide, fun hmem => ?_⟩
        exact absurd (numeral.2.1 space hmem) (by decide)
      · rw [List.append_assoc]
        exact append_ne_append (by decide) (by decide) _ _
  | gpusDir =>
      refine Or.inl ⟨by decide, fun x => ?_⟩
      have hne := @append_ne_append _ (Nvscope.gpusDir ++ [space]) gpusPrefix (by decide) (by decide) x
      simpa only [List.append_assoc, List.singleton_append] using hne
  | information b pos lt noSlash => exact Or.inr ⟨b, rfl, noSlash⟩

/-- A recognised path ends at the space behind it, though there may be spaces in its bus id. -/
theorem pathField (w : CStr) : SelfDelimiting Recognised fun path => path ++ space :: w := by
  intro path path' x y h h' heq
  simp only [List.append_assoc, List.cons_append] at heq
  rcases h.plain_or with ⟨hspace, hne⟩ | ⟨b, rfl, hslash⟩
  · rcases h'.plain_or with ⟨hspace', -⟩ | ⟨b', rfl, -⟩
    · obtain ⟨rfl, hrest⟩ := append_cons_inj hspace hspace' heq
      exact ⟨rfl, List.append_cancel_left hrest⟩
    · rw [informationPath, List.append_assoc] at heq
      exact absurd heq (hne _ _)
  · rcases h'.plain_or with ⟨-, hne⟩ | ⟨b', rfl, hslash'⟩
    · rw [informationPath, List.append_assoc] at heq
      exact absurd heq.symm (hne _ _)
    · obtain ⟨tail, hsuffix⟩ : ∃ tail, informationSuffix = slash :: tail := ⟨informationSuffix.tail, by decide⟩
      simp only [informationPath, List.append_assoc, hsuffix, List.cons_append] at heq
      obtain ⟨rfl, hrest⟩ := append_cons_inj hslash hslash' (List.append_cancel_left heq)
      have hword := List.append_cancel_left hrest
      exact ⟨rfl, List.append_cancel_left (List.cons.inj hword).2⟩

/-! ## Lines -/

theorem flagField : SelfDelimiting (fun _ : Bool => True) flagText := by
  intro flag flag' x y _ _ heq
  cases flag <;> cases flag' <;> simp_all [flagText, ascii]

/-- The text by which the kind of a detail is told. -/
def IoctlDetail.tag : IoctlDetail → CStr
  | .rmControl _ _ _ _ _ => ascii "esc=RM_CONTROL cmd=0x"
  | .cardInfo _ _ => ascii "esc=CARD_INFO entries=32 arg "
  | .other _ _ => ascii "arg "

def IoctlDetail.body : IoctlDetail → CStr
  | .rmControl cmd params paramsSize status result =>
      (numeral 16 cmd.toNat ++ 40 :: (rmControlCmdName cmd ++ ascii ") params=")) ++
        ((pointerText params ++ space :: ascii "paramsSize=") ++
          ((numeral 10 paramsSize.toNat ++ space :: ascii "status=0x") ++
            ((numeral 16 status.toNat ++ space :: ascii "result=") ++ (signedNumeral result ++ newline :: []))))
  | .cardInfo arg result | .other arg result =>
      (pointerText arg ++ space :: ascii "result ") ++ (signedNumeral result ++ newline :: [])

theorem IoctlDetail.text_eq (detail : IoctlDetail) : detail.text ++ [newline] = detail.tag ++ detail.body := by
  have hcount : numeral 10 nvMaxDevices = [51, 50] := by decide
  cases detail <;> simp [text, tag, body, hcount, ascii, List.append_assoc]

theorem rmControl_body : SelfDelimiting (fun _ => True ∧ True ∧ True ∧ True ∧ True)
    fun p : UInt32 × UInt64 × UInt32 × UInt32 × Int =>
      (IoctlDetail.rmControl p.1 p.2.1 p.2.2.1 p.2.2.2.1 p.2.2.2.2).body :=
  (numeralField32 16 (fun cmd => rmControlCmdName cmd ++ ascii ") params=") 40 (by decide) (by decide)
    (by decide)).seq ((pointerField (ascii "paramsSize=")).seq
      ((numeralField32 10 (fun _ => ascii "status=0x") space (by decide) (by decide) (by decide)).seq
        ((numeralField32 16 (fun _ => ascii "result=") space (by decide) (by decide) (by decide)).seq
          (signedField [] newline (by decide)))))

theorem argument_body : SelfDelimiting (fun _ => True ∧ True)
    fun p : UInt64 × Int => (IoctlDetail.other p.1 p.2).body :=
  (pointerField (ascii "result ")).seq (signedField [] newline (by decide))

def detailTags : List CStr :=
  [ascii "esc=RM_CONTROL cmd=0x", ascii "esc=CARD_INFO entries=32 arg ", ascii "arg "]

theorem detailTags_apart :
    ∀ w ∈ detailTags, ∀ w' ∈ detailTags, w = w' ∨ ¬ w <+: w' ∧ ¬ w' <+: w := by
  decide

theorem IoctlDetail.tag_mem (detail : IoctlDetail) : detail.tag ∈ detailTags := by
  cases detail <;> simp [tag, detailTags]

theorem IoctlDetail.selfDelimiting : SelfDelimiting (fun _ => True) fun detail : IoctlDetail =>
    detail.tag ++ detail.body := by
  refine .tagged (fun detail detail' => detailTags_apart _ detail.tag_mem _ detail'.tag_mem)
    fun detail detail' x y _ _ htag heq => ?_
  cases detail with
  | rmControl cmd params paramsSize status result =>
      cases detail' with
      | rmControl cmd' params' paramsSize' status' result' =>
          obtain ⟨hfields, hxy⟩ := rmControl_body (cmd, params, paramsSize, status, result)
            (cmd', params', paramsSize', status', result') x y ⟨trivial, trivial, trivial, trivial, trivial⟩
            ⟨trivial, trivial, trivial, trivial, trivial⟩ heq
          cases hfields
          exact ⟨rfl, hxy⟩
      | _ => exact absurd htag (by simp only [tag]; decide)
  | cardInfo arg result =>
      cases detail' with
      | cardInfo arg' result' =>
          obtain ⟨hfields, hxy⟩ := argument_body (arg, result) (arg', result') x y ⟨trivial, trivial⟩
            ⟨trivial, trivial⟩ heq
          cases hfields
          exact ⟨rfl, hxy⟩
      | _ => exact absurd htag (by simp only [tag]; decide)
  | other arg result =>
      cases detail' with
      | other arg' result' =>
          obtain ⟨hfields, hxy⟩ := argument_body (arg, result) (arg', result') x y ⟨trivial, trivial⟩
            ⟨trivial, trivial⟩ heq
          cases hfields
          exact ⟨rfl, hxy⟩
      | _ => exact absurd htag (by simp only [tag]; decide)

/-- The lines a run may write. -/
def TraceLine.Sound : TraceLine → Prop
  | .opened path _ => Recognised path
  | _ => True

/-- The text by which the kind of a line is told. -/
def TraceLine.tag : TraceLine → CStr
  | .opened _ _ => ascii "[nvscope] open "
  | .ioctl _ _ _ => ascii "[nvscope] ioctl fd "
  | .filteredAttached _ => ascii "[nvscope] filtered RM attached gpuIds to "
  | .filteredActive => ascii "[nvscope] filtered RM active device ids to "
  | .loaded _ _ _ => ascii "[nvscope] loaded trace="
  | .undetected => ascii "[nvscope] warning: "

def TraceLine.body : TraceLine → CStr
  | .opened path fd => (path ++ space :: ascii "-> fd ") ++ (signedNumeral fd ++ newline :: [])
  | .ioctl fd request detail =>
      (signedNumeral fd ++ space :: ascii "request 0x") ++
        ((numeral 16 request.toNat ++ space :: []) ++ (detail.tag ++ detail.body))
  | .filteredAttached kept => numeral 10 kept ++ space :: ascii "allowed entries\n"
  | .filteredActive => ascii "allowed gpuIds\n"
  | .loaded trace proc rm =>
      flagText trace ++ ((ascii " proc=" ++ flagText proc) ++ ((ascii " ioctl=" ++ flagText rm) ++ [newline]))
  | .undetected => ascii "proc filter enabled but GPU topology detection failed\n"

theorem TraceLine.render_eq : TraceLine.render = fun line => line.tag ++ line.body := by
  funext line
  cases line with
  | opened path fd => simp [render, prefixText, text, tag, body, ascii, List.append_assoc]
  | ioctl fd request detail =>
      rw [body, ← detail.text_eq]
      simp [render, prefixText, text, tag, ascii, List.append_assoc]
  | filteredAttached kept => simp [render, prefixText, text, tag, body, ascii, List.append_assoc]
  | filteredActive => decide
  | loaded trace proc rm => simp [render, prefixText, text, tag, body, ascii, List.append_assoc]
  | undetected => decide

theorem opened_body : SelfDelimiting (fun p : CStr × Int => Recognised p.1 ∧ True)
    fun p => (TraceLine.opened p.1 p.2).body :=
  (pathField _).seq (signedField [] newline (by decide))

theorem ioctl_body : SelfDelimiting (fun _ => True ∧ True ∧ True)
    fun p : Int × UInt64 × IoctlDetail => (TraceLine.ioctl p.1 p.2.1 p.2.2).body :=
  (signedField (ascii "request 0x") space (by decide)).seq ((requestField []).seq IoctlDetail.selfDelimiting)

theorem filteredAttached_body :
    SelfDelimiting (fun _ : Nat => True) fun kept => (TraceLine.filteredAttached kept).body :=
  numeralField 10 id (fun _ => ascii "allowed entries\n") space (by decide) (by decide) (fun _ _ h => h) (by decide)

theorem loaded_body : SelfDelimiting (fun _ => True ∧ True ∧ True)
    fun p : Bool × Bool × Bool => (TraceLine.loaded p.1 p.2.1 p.2.2).body := by
  have hlast : SelfDelimiting (fun _ : Bool => True) fun flag => ascii " ioctl=" ++ flagText flag ++ [newline] := by
    intro flag flag' x y _ _ heq
    cases flag <;> cases flag' <;> simp_all [flagText, ascii]
  exact flagField.seq ((flagField.prefixed (ascii " proc=")).seq hlast)

def lineTags : List CStr :=
  [ascii "[nvscope] open ", ascii "[nvscope] ioctl fd ", ascii "[nvscope] filtered RM attached gpuIds to ",
    ascii "[nvscope] filtered RM active device ids to ", ascii "[nvscope] loaded trace=", ascii "[nvscope] warning: "]

theorem lineTags_apart : ∀ w ∈ lineTags, ∀ w' ∈ lineTags, w = w' ∨ ¬ w <+: w' ∧ ¬ w' <+: w := by
  decide

theorem TraceLine.tag_mem (line : TraceLine) : line.tag ∈ lineTags := by
  cases line <;> simp [tag, lineTags]

theorem TraceLine.selfDelimiting : SelfDelimiting Sound render := by
  rw [render_eq]
  refine .tagged (fun line line' => lineTags_apart _ line.tag_mem _ line'.tag_mem)
    fun line line' x y hline hline' htag heq => ?_
  cases line with
  | opened path fd =>
      cases line' with
      | opened path' fd' =>
          obtain ⟨hfields, hxy⟩ := opened_body (path, fd) (path', fd') x y ⟨hline, trivial⟩ ⟨hline', trivial⟩ heq
          cases hfields
          exact ⟨rfl, hxy⟩
      | _ => exact absurd htag (by simp only [tag]; decide)
  | ioctl fd request detail =>
      cases line' with
      | ioctl fd' request' detail' =>
          obtain ⟨hfields, hxy⟩ := ioctl_body (fd, request, detail) (fd', request', detail') x y
            ⟨trivial, trivial, trivial⟩ ⟨trivial, trivial, trivial⟩ heq
          cases hfields
          exact ⟨rfl, hxy⟩
      | _ => exact absurd htag (by simp only [tag]; decide)
  | filteredAttached kept =>
      cases line' with
      | filteredAttached kept' =>
          obtain ⟨rfl, hxy⟩ := filteredAttached_body kept kept' x y trivial trivial heq
          exact ⟨rfl, hxy⟩
      | _ => exact absurd htag (by simp only [tag]; decide)
  | filteredActive =>
      cases line' with
      | filteredActive => exact ⟨rfl, List.append_cancel_left heq⟩
      | _ => exact absurd htag (by simp only [tag]; decide)
  | loaded trace proc rm =>
      cases line' with
      | loaded trace' proc' rm' =>
          obtain ⟨hfields, hxy⟩ := loaded_body (trace, proc, rm) (trace', proc', rm') x y
            ⟨trivial, trivial, trivial⟩ ⟨trivial, trivial, trivial⟩ heq
          cases hfields
          exact ⟨rfl, hxy⟩
      | _ => exact absurd htag (by simp only [tag]; decide)
  | undetected =>
      cases line' with
      | undetected => exact ⟨rfl, List.append_cancel_left heq⟩
      | _ => exact absurd htag (by simp only [tag]; decide)

end Nvscope
