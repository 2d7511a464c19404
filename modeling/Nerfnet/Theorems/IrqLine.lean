import Nerfnet.IrqLine
import Nerfnet.Theorems.Driver

/-! # The line of the interrupt

Which line `--irq_pin` stands for, and what becomes of the handles of libgpiod while an interface lives. -/

namespace Nerfnet

/-! ### The chips -/

namespace GpioSystem
variable {system : GpioSystem} {label name : String} {numLines : ℕ} {pin : ℤ} {target : ResolvedIrqTarget} {chip : GpiodChip}
  {entry : SysfsEntry}

/-- The chips that the loops come to. -/
def allChips (system : GpioSystem) : List GpiodChip := system.chips.getD []

theorem scan_chips {β : Type} (system : GpioSystem) (candidate : GpiodChip → Option β) (wanted : GpiodChip → Bool) :
    system.chips.bind (Search.scan candidate wanted none) = Search.scan candidate wanted none system.allChips := by
  cases hchips : system.chips <;> simp [allChips, hchips, Search.scan]

theorem of_findChip (h : system.findChipNameByLabelAndLines label numLines = some name) :
    ∃ chip ∈ system.allChips, chip.name = some name ∧ chip.label = some label ∧
      (chip.numLines = numLines ∨ ∀ c ∈ system.allChips, c.name ≠ none → c.label = some label → c.numLines ≠ numLines) := by
  rw [findChipNameByLabelAndLines, scan_chips] at h
  obtain ⟨chip, hmem, hchip, hbest⟩ := Search.of_scan_eq_some h
  obtain ⟨hlabel, hname⟩ := Option.ite_none_right_eq_some.mp hchip
  refine ⟨chip, hmem, hname, hlabel, hbest.imp of_decide_eq_true fun hnone c hc hnamed hlabel' => ?_⟩
  exact of_decide_eq_false (hnone c hc (by rwa [if_pos hlabel']))

theorem findChip_eq_none_iff : system.findChipNameByLabelAndLines label numLines = none ↔
    ∀ chip ∈ system.allChips, chip.label = some label → chip.name = none := by
  rw [findChipNameByLabelAndLines, scan_chips, Search.scan_eq_none_iff]
  simp only [ite_eq_right_iff]

theorem of_resolveIrqTargetFromOffset (h : system.resolveIrqTargetFromOffset pin = some target) :
    0 ≤ pin ∧ ∃ chip ∈ system.allChips, chip.name = some target.chipName ∧ chip.label.getD "" = target.chipLabel ∧
      target.lineOffset = pin.toNat ∧ target.globalGpio = -1 ∧ pin.toNat < chip.numLines ∧
      (isPreferredGpioChipLabel target.chipLabel = true ∨
        ∀ c ∈ system.allChips, c.name ≠ none → pin.toNat < c.numLines → isPreferredGpioChipLabel (c.label.getD "") = false) := by
  rw [resolveIrqTargetFromOffset, scan_chips] at h
  obtain ⟨chip, hmem, hchip, hbest⟩ := Search.of_scan_eq_some h
  obtain ⟨hline, htarget⟩ := Option.ite_none_left_eq_some.mp hchip
  obtain ⟨hpin, hlines⟩ := not_or.mp hline
  obtain ⟨chipName, hname, rfl⟩ := Option.map_eq_some_iff.mp htarget
  refine ⟨not_lt.mp hpin, chip, hmem, hname, rfl, rfl, rfl, not_le.mp hlines, ?_⟩
  refine hbest.imp_right fun hnone c hc hnamed hlines' => ?_
  refine hnone c hc ?_
  rw [if_neg (not_or.mpr ⟨hpin, not_le.mpr hlines'⟩)]
  simpa using hnamed

theorem resolveIrqTargetFromOffset_eq_none_iff (hpin : 0 ≤ pin) : system.resolveIrqTargetFromOffset pin = none ↔
    ∀ chip ∈ system.allChips, pin.toNat < chip.numLines → chip.name = none := by
  rw [resolveIrqTargetFromOffset, scan_chips, Search.scan_eq_none_iff]
  simp [not_lt.mpr hpin]

end GpioSystem

/-! ### The entries of sysfs -/

/-- The entry is about a chip with `ngpio` lines from `base` on, one of which is the pin. -/
structure SysfsEntry.Covers (entry : SysfsEntry) (pin : ℤ) (base ngpio : Int32) : Prop where
  isDirectory : entry.isDirectory = true
  gpiochip : "gpiochip".toList <+: entry.name.toList
  readsBase : entry.base = some base
  readsNgpio : entry.ngpio = some ngpio
  lower : base.toInt ≤ pin
  upper : pin < base.toInt + ngpio.toInt

/-- The number after the last line of the entry is an `int`. -/
def SysfsEntry.Fits (entry : SysfsEntry) : Prop :=
  ∀ base ∈ entry.base, ∀ ngpio ∈ entry.ngpio, -2 ^ 31 ≤ base.toInt + ngpio.toInt ∧ base.toInt + ngpio.toInt < 2 ^ 31

theorem SysfsEntry.Fits.toInt_add {entry : SysfsEntry} (h : entry.Fits) {base ngpio : Int32} (hbase : entry.base = some base)
    (hngpio : entry.ngpio = some ngpio) : (base + ngpio).toInt = base.toInt + ngpio.toInt := by
  obtain ⟨hlower, hupper⟩ := h base hbase ngpio hngpio
  rw [Int32.toInt_add]
  exact Int.bmod_eq_of_le (by omega) (by omega)

/-- The casts to `unsigned int` change nothing. -/
theorem SysfsEntry.Covers.casts {entry : SysfsEntry} {pin : ℤ} {base ngpio : Int32} (h : entry.Covers pin base ngpio) :
    ngpio.toInt % 2 ^ 32 = ngpio.toInt ∧ (pin - base.toInt) % 2 ^ 32 = pin - base.toInt := by
  have hlower := h.lower
  have hupper := h.upper
  have hlt := ngpio.toInt_lt
  exact ⟨Int.emod_eq_of_lt (by omega) (by omega), Int.emod_eq_of_lt (by omega) (by omega)⟩

namespace GpioSystem
variable {system : GpioSystem} {pin : ℤ} {target : ResolvedIrqTarget} {entry : SysfsEntry} {entries : List SysfsEntry}

theorem resolveInEntry_eq_some_iff (hfits : entry.Fits) : system.resolveInEntry pin entry = some target ↔
    ∃ base ngpio chipName, entry.Covers pin base ngpio ∧
      system.findChipNameByLabelAndLines entry.label ngpio.toInt.toNat = some chipName ∧
      target = { chipName, chipLabel := entry.label, lineOffset := (pin - base.toInt).toNat, globalGpio := pin } := by
  unfold resolveInEntry
  constructor
  · intro h
    obtain ⟨hdirectory, h⟩ := Option.ite_none_left_eq_some.mp h
    obtain ⟨hname, h⟩ := Option.ite_none_left_eq_some.mp h
    split at h
    · rename_i base ngpio hbase hngpio
      obtain ⟨hinside, h⟩ := Option.ite_none_left_eq_some.mp h
      obtain ⟨hlower, hupper⟩ := not_or.mp hinside
      rw [hfits.toInt_add hbase hngpio] at hupper
      obtain ⟨chipName, hfind, htarget⟩ := Option.map_eq_some_iff.mp h
      have hcovers : entry.Covers pin base ngpio :=
        ⟨by simpa using hdirectory, not_not.mp hname, hbase, hngpio, not_lt.mp hlower, not_le.mp hupper⟩
      obtain ⟨hlines, hoffset⟩ := hcovers.casts
      rw [hlines] at hfind
      rw [hoffset] at htarget
      exact ⟨base, ngpio, chipName, hcovers, hfind, htarget.symm⟩
    · cases h
  · rintro ⟨base, ngpio, chipName, hcovers, hfind, rfl⟩
    obtain ⟨hlines, hoffset⟩ := hcovers.casts
    have hinside : ¬(pin < base.toInt ∨ (base + ngpio).toInt ≤ pin) := by
      rw [hfits.toInt_add hcovers.readsBase hcovers.readsNgpio]
      exact not_or.mpr ⟨not_lt.mpr hcovers.lower, not_le.mpr hcovers.upper⟩
    simp only [hcovers.isDirectory, Bool.not_true, Bool.false_eq_true, if_false, hcovers.gpiochip, not_true_eq_false,
      hcovers.readsBase, hcovers.readsNgpio, hinside, hlines, hoffset, hfind, Option.map_some]

/-- An entry leads to no chip if it is not about the pin or no chip with a name has its label. -/
theorem resolveInEntry_eq_none_iff (hfits : entry.Fits) : system.resolveInEntry pin entry = none ↔
    ∀ base ngpio, entry.Covers pin base ngpio →
      ∀ chip ∈ system.allChips, chip.label = some entry.label → chip.name = none := by
  constructor
  · intro h base ngpio hcovers
    by_contra hnamed
    have hfind : system.findChipNameByLabelAndLines entry.label ngpio.toInt.toNat ≠ none := mt findChip_eq_none_iff.mp hnamed
    obtain ⟨chipName, hfind⟩ := Option.ne_none_iff_exists'.mp hfind
    have hsome := (resolveInEntry_eq_some_iff hfits).mpr ⟨base, ngpio, chipName, hcovers, hfind, rfl⟩
    exact Option.some_ne_none _ (hsome.symm.trans h)
  · intro h
    by_contra hsome
    obtain ⟨target, hsome⟩ := Option.ne_none_iff_exists'.mp hsome
    obtain ⟨base, ngpio, chipName, hcovers, hfind, -⟩ := (resolveInEntry_eq_some_iff hfits).mp hsome
    rw [findChip_eq_none_iff.mpr (h base ngpio hcovers)] at hfind
    cases hfind

/-- No entry about the pin leads to a chip. -/
def Unlisted (system : GpioSystem) (entries : List SysfsEntry) (pin : ℤ) : Prop :=
  ∀ entry ∈ entries, ∀ base ngpio, entry.Covers pin base ngpio →
    ∀ chip ∈ system.allChips, chip.label = some entry.label → chip.name = none

theorem findSome_resolveInEntry_eq_none_iff (hfits : ∀ entry ∈ entries, entry.Fits) :
    entries.findSome? (system.resolveInEntry pin) = none ↔ system.Unlisted entries pin := by
  rw [List.findSome?_eq_none_iff]
  exact forall₂_congr fun entry hentry => resolveInEntry_eq_none_iff (hfits entry hentry)

/-! ### What a pin stands for -/

/-- The chip has the line that the pin stands for: the one that sysfs gives the number to, on a chip with
    the label that sysfs has there and, if there is one, with as many lines; or the one with the offset,
    on a chip that has it and, if there is one, with a preferred label. -/
inductive Locates (system : GpioSystem) (entries : List SysfsEntry) (pin : ℤ) (target : ResolvedIrqTarget)
    (chip : GpiodChip) : Prop
  | global {entry : SysfsEntry} {base ngpio : Int32} : entry ∈ entries → entry.Covers pin base ngpio →
      target.globalGpio = pin → target.chipLabel = entry.label → base.toInt + target.lineOffset = pin →
      chip.label = some entry.label →
      (chip.numLines = ngpio.toInt ∨
        ∀ c ∈ system.allChips, c.name ≠ none → c.label = some entry.label → (c.numLines : ℤ) ≠ ngpio.toInt) →
      Locates system entries pin target chip
  | offset : system.Unlisted entries pin → target.globalGpio = -1 → target.lineOffset = pin →
      target.lineOffset < chip.numLines → target.chipLabel = chip.label.getD "" →
      (isPreferredGpioChipLabel target.chipLabel = true ∨ ∀ c ∈ system.allChips, c.name ≠ none →
        target.lineOffset < c.numLines → isPreferredGpioChipLabel (c.label.getD "") = false) →
      Locates system entries pin target chip

theorem of_resolveInEntry (hfits : entry.Fits) (hentry : entry ∈ entries) (h : system.resolveInEntry pin entry = some target) :
    ∃ chip ∈ system.allChips, chip.name = some target.chipName ∧ system.Locates entries pin target chip := by
  obtain ⟨base, ngpio, chipName, hcovers, hfind, rfl⟩ := (resolveInEntry_eq_some_iff hfits).mp h
  obtain ⟨chip, hmem, hname, hlabel, hlines⟩ := of_findChip hfind
  have hlower := hcovers.lower
  have hupper := hcovers.upper
  refine ⟨chip, hmem, hname, .global hentry hcovers rfl rfl (by simp only; omega) hlabel ?_⟩
  refine hlines.imp (fun heq => by omega) fun hnone c hc hnamed hlabel' heq => hnone c hc hnamed hlabel' (by omega)

/-- As long as `base + ngpio` of no entry overflows, `ResolveIrqTarget` finds the line that a pin stands for
    on a chip that there is, and finds none only where there is none. -/
theorem resolves_pin {result : Option ResolvedIrqTarget} (h : system.resolveIrqTarget pin = .ok result) (hpin : 0 ≤ pin)
    (hfits : ∀ entries, system.sysfs = .ok entries → ∀ entry ∈ entries, entry.Fits) :
    ∃ entries, system.sysfs = .ok entries ∧
      (∀ target, result = some target →
        ∃ chip ∈ system.allChips, chip.name = some target.chipName ∧ system.Locates entries pin target chip) ∧
      (result = none ↔ system.Unlisted entries pin ∧ ∀ chip ∈ system.allChips, pin < chip.numLines → chip.name = none) := by
  rw [resolveIrqTarget, if_neg (not_lt.mpr hpin), resolveIrqTargetFromGlobal] at h
  cases hsysfs : system.sysfs with
  | error e =>
    rw [hsysfs] at h
    cases h
  | ok entries =>
    rw [hsysfs] at h
    have hfits := hfits entries hsysfs
    obtain rfl := Except.ok.inj h
    refine ⟨entries, rfl, fun target htarget => ?_, ?_⟩
    · rcases Option.or_eq_some_iff.mp htarget with hglobal | ⟨hnone, hoffset⟩
      · obtain ⟨entry, hentry, hresolve⟩ := List.exists_of_findSome?_eq_some hglobal
        exact of_resolveInEntry (hfits entry hentry) hentry hresolve
      · obtain ⟨-, chip, hmem, hname, hlabel, hline, hnumber, hlines, hbest⟩ := of_resolveIrqTargetFromOffset hoffset
        have hunlisted := (findSome_resolveInEntry_eq_none_iff hfits).mp hnone
        exact ⟨chip, hmem, hname, .offset hunlisted hnumber (by omega) (by omega) hlabel.symm (hline ▸ hbest)⟩
    · rw [Option.or_eq_none_iff, findSome_resolveInEntry_eq_none_iff hfits, resolveIrqTargetFromOffset_eq_none_iff hpin]
      refine and_congr_right fun _ => forall₂_congr fun chip _ => ?_
      rw [Int.toNat_lt hpin]

/-- A board whose own lines have the numbers from 512 on, with an expander that comes first. -/
def board : GpioSystem where
  sysfs := .ok [⟨true, "gpiochip512", some 512, some 54, "pinctrl-bcm2711"⟩]
  chips := some [⟨some "gpiochip0", some "pcf8574", 8⟩, ⟨some "gpiochip1", some "pinctrl-bcm2711", 54⟩]
  opens _ := true
  hasLine _ _ := true
  requests _ _ := true

/-- The offset 6 is a line of the board, although the expander has one too. -/
theorem resolves_pin_offset :
    ∃ target chip, board.resolveIrqTarget 6 = .ok (some target) ∧ target.chipName = "gpiochip1" ∧ target.lineOffset = 6 ∧
      chip ∈ board.allChips ∧ chip.name = some target.chipName ∧
      board.Locates [⟨true, "gpiochip512", some 512, some 54, "pinctrl-bcm2711"⟩] 6 target chip := by
  have hresolve : board.resolveIrqTarget 6 =
      .ok (some { chipName := "gpiochip1", chipLabel := "pinctrl-bcm2711", lineOffset := 6 }) := by decide +kernel
  have hfits : ∀ entries, board.sysfs = .ok entries → ∀ entry ∈ entries, entry.Fits := by
    intro entries hentries entry hentry base hbase ngpio hngpio
    obtain rfl := Except.ok.inj hentries
    obtain rfl := List.mem_singleton.mp hentry
    obtain rfl := Option.some.inj hbase
    obtain rfl := Option.some.inj hngpio
    decide
  obtain ⟨entries, hentries, hfound, -⟩ := resolves_pin hresolve (by decide) hfits
  obtain rfl := Except.ok.inj hentries
  obtain ⟨chip, hmem, hname, hlocates⟩ := hfound _ rfl
  exact ⟨_, chip, hresolve, rfl, rfl, hmem, hname, hlocates⟩

/-- Where the sum overflows, no line of the entry is found. -/
example : board.resolveInEntry 2147483645 ⟨true, "gpiochip0", some 2147483640, some 54, "pinctrl-bcm2711"⟩ = none := by
  decide +kernel

end GpioSystem

/-! ### The handles -/

/-- What an interface holds of libgpiod: nothing, a chip, a line of it too, or a line with its events. -/
inductive LineMode where
  | closed
  | opened
  | obtained
  | requested
  deriving DecidableEq

/-- The calls that libgpiod allows on what is held; nothing is held twice, and a chip is closed after its
    line has been released. -/
def LineMode.step : LineMode → GpiodCall → Option LineMode
  | .closed, .chipOpenByName _ ok => some (if ok then .opened else .closed)
  | .opened, .chipGetLine _ ok => some (if ok then .obtained else .opened)
  | .obtained, .lineRequestFallingEdgeEvents ok => some (if ok then .requested else .obtained)
  | .obtained, .lineRelease | .requested, .lineRelease => some .opened
  | .opened, .chipClose => some .closed
  | .requested, .driver (.lineEventWait _ _) | .requested, .driver (.lineEventRead _) => some .requested
  | _, .driver (.lineEventWait _ _) | _, .driver (.lineEventRead _) => none
  | mode, .driver _ => some mode
  | _, _ => none

def LineMode.Follows (mode : LineMode) (calls : List GpiodCall) (mode' : LineMode) : Prop :=
  Machine.Run LineMode.step (fun _ _ => True) mode calls mode'

/-- Where there is no line, the loops do not ask for its events. -/
theorem RadioMode.Accepts.follows {irq blocking : Bool} {m m' : RadioMode} {calls : List DriverCall}
    (h : m.Accepts irq blocking calls m') :
    LineMode.Follows (if irq then .requested else .closed) (calls.map .driver) (if irq then .requested else .closed) := by
  induction h with
  | nil m => exact .nil _
  | @cons m u m' call calls hallowed hcall _ ih =>
    refine .cons trivial ?_ ih
    cases hirq : irq with
    | true => cases call <;> rfl
    | false =>
      cases call with
      | lineEventWait timeout result => exact absurd (hirq.symm.trans hallowed.1) Bool.false_ne_true
      | lineEventRead result => exact absurd (hirq.symm.trans hallowed.1) Bool.false_ne_true
      | _ => rfl

namespace IrqLine
variable {system : GpioSystem} {pin : ℤ} {s : IrqLine} {calls : List GpiodCall} {returned : Bool}

/-- The line that the pin stands for, with its events. -/
def requested (target : ResolvedIrqTarget) : IrqLine where
  irqChip := some target.chipName
  irqLine := some target.lineOffset
  resolvedIrqChipName := target.chipName
  resolvedIrqLineOffset := target.lineOffset
  resolvedIrqGlobalGpio := target.globalGpio

/-- `InitializeIrq` has got the line and its events, or it has left nothing behind. -/
theorem initializeIrq_cases (h : initializeIrq system pin {} = .ok (s, returned, calls)) :
    (returned = true ∧ LineMode.Follows .closed calls .requested ∧
      ∃ target, system.resolveIrqTarget pin = .ok (some target) ∧ s = requested target) ∨
    (returned = false ∧ LineMode.Follows .closed calls .closed ∧ s = {}) := by
  unfold initializeIrq at h
  split at h
  · cases h
    exact Or.inr ⟨rfl, .nil _, rfl⟩
  cases hresolve : system.resolveIrqTarget pin with
  | error e =>
    rw [hresolve] at h
    cases h
  | ok result =>
    rw [hresolve] at h
    have h := Except.ok.inj h
    cases result with
    | none =>
      cases h
      exact Or.inr ⟨rfl, .nil _, rfl⟩
    | some target =>
      cases hopens : system.opens target.chipName with
      | false =>
        simp only [hopens, Bool.not_false, if_true] at h
        cases h
        exact Or.inr ⟨rfl, .cons trivial rfl (.nil _), rfl⟩
      | true =>
        cases hline : system.hasLine target.chipName target.lineOffset with
        | false =>
          simp only [hopens, hline, Bool.not_true, Bool.not_false, Bool.false_eq_true, if_false, if_true] at h
          cases h
          -- the chip is closed again
          exact Or.inr ⟨rfl, .cons trivial rfl (.cons trivial rfl (.cons trivial rfl (.nil _))), rfl⟩
        | true =>
          cases hrequests : system.requests target.chipName target.lineOffset with
          | false =>
            simp only [hopens, hline, hrequests, Bool.not_true, Bool.not_false, Bool.false_eq_true, if_false, if_true] at h
            cases h
            -- the line is released, then the chip closed
            exact Or.inr ⟨rfl, .cons trivial rfl (.cons trivial rfl (.cons trivial rfl (.cons trivial rfl
              (.cons trivial rfl (.nil _))))), rfl⟩
          | true =>
            simp only [hopens, hline, hrequests, Bool.not_true, Bool.false_eq_true, if_false] at h
            cases h
            exact Or.inl ⟨rfl, .cons trivial rfl (.cons trivial rfl (.cons trivial rfl (.nil _))), target, rfl, rfl⟩

theorem construct_cases (h : construct system pin = .ok (s, calls)) :
    (LineMode.Follows .closed calls .requested ∧
      ∃ target, system.resolveIrqTarget pin = .ok (some target) ∧ s = requested target) ∨
    (LineMode.Follows .closed calls .closed ∧ s = {}) := by
  unfold construct at h
  split at h
  · cases h
    exact Or.inr ⟨.nil _, rfl⟩
  cases hstarted : initializeIrq system pin {} with
  | error e =>
    rw [hstarted] at h
    cases h
  | ok result =>
    obtain ⟨s', returned, calls'⟩ := result
    rw [hstarted] at h
    cases h
    rcases initializeIrq_cases hstarted with ⟨-, hcalls, hline⟩ | ⟨-, hcalls, hnothing⟩
    · exact Or.inl ⟨hcalls, hline⟩
    · exact Or.inr ⟨hcalls, hnothing⟩

/-- Without `/sys/class/gpio` there is no fallback to polling: the constructor throws. -/
theorem construct_throws_iff : (∃ e, construct system pin = .error e) ↔ 0 ≤ pin ∧ ∃ e, system.sysfs = .error e := by
  by_cases hpin : pin < 0
  · simp [construct, hpin]
  · cases hsysfs : system.sysfs <;>
      simp [construct, initializeIrq, GpioSystem.resolveIrqTarget, GpioSystem.resolveIrqTargetFromGlobal, hpin, hsysfs,
        not_lt.mp hpin, Except.map]

/-- What the driver allows a loop is allowed between the constructor and the destructor. -/
theorem follows_life {blocking : Bool} {m m' : RadioMode} {asked : List DriverCall} (h : construct system pin = .ok (s, calls))
    (hasked : m.Accepts s.irqLine.isSome blocking asked m') :
    LineMode.Follows .closed (calls ++ asked.map .driver ++ s.cleanupIrq.2) .closed := by
  have hasked := hasked.follows
  rcases construct_cases h with ⟨hcalls, target, -, rfl⟩ | ⟨hcalls, rfl⟩
  · have hcleanup : LineMode.Follows .requested (requested target).cleanupIrq.2 .closed :=
      .cons trivial rfl (.cons trivial rfl (.nil _))
    exact (Machine.Run.append hcalls hasked).append hcleanup
  · exact (Machine.Run.append hcalls hasked).append (.nil _)

/-- From the constructor, through any run of either loop, to the destructor an interface makes only calls
    that libgpiod allows, waits for a line only if it is the one that the pin stands for, and has nothing
    left in the end. -/
theorem handles_released (h : construct system pin = .ok (s, calls)) :
    ((∃ target, system.resolveIrqTarget pin = .ok (some target) ∧ s = requested target) ∨ s = {}) ∧
    (∀ r es t, Machine.Run (CoordinatorThread.step s.irqLine.isSome) (fun _ _ => True) { radio := r } es t →
      LineMode.Follows .closed (calls ++ (es.flatMap ThreadEvent.calls).map .driver ++ s.cleanupIrq.2) .closed) ∧
    (∀ r es t, Machine.Run (PeerThread.step s.irqLine.isSome) (fun _ _ => True) { radio := r } es t →
      LineMode.Follows .closed (calls ++ (es.flatMap ThreadEvent.calls).map .driver ++ s.cleanupIrq.2) .closed) := by
  refine ⟨(construct_cases h).imp And.right And.right, fun r es t hrun => ?_, fun r es t hrun => ?_⟩
  · obtain ⟨m, haccepts, -⟩ := CoordinatorThread.run_allowed hrun
    exact follows_life h haccepts
  · obtain ⟨m, haccepts, -⟩ := PeerThread.run_allowed hrun
    exact follows_life h haccepts

/-- The number 518 is the same line of the board; the coordinator waits for it once. -/
theorem handles_released_board :
    ∃ s calls packet t, construct GpioSystem.board 518 = .ok (s, calls) ∧ s.irqLine = some 6 ∧
      Machine.Run (CoordinatorThread.step s.irqLine.isSome) (fun _ _ => True) { radio := { currentPollIntervalUs := 100 } }
        (CoordinatorThread.confirmedReset packet) t ∧
      LineMode.Follows .closed (calls ++ ((CoordinatorThread.confirmedReset packet).flatMap ThreadEvent.calls).map .driver ++
        s.cleanupIrq.2) .closed := by
  have hconstruct : construct GpioSystem.board 518 = .ok (requested ⟨"gpiochip1", "pinctrl-bcm2711", 6, 518⟩,
      [.chipOpenByName "gpiochip1" true, .chipGetLine 6 true, .lineRequestFallingEdgeEvents true]) := by decide +kernel
  obtain ⟨packet, t, hrun, -, -⟩ := CoordinatorThread.confirmedReset_run
  exact ⟨_, _, packet, t, hconstruct, rfl, hrun, (handles_released hconstruct).2.1 _ _ t hrun⟩

end IrqLine

end Nerfnet
