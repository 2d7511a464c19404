import Mathlib.Data.List.Infix
import Nerfnet.Library.Search
import Nerfnet.RadioDriver

/-! # The line of the interrupt

`InitializeIrq` and `CleanupIrq` of `nerfnet/net/radio_interface.cc` with the functions that look up
`--irq_pin`, over what sysfs and libgpiod answer. The answers do not change in the meantime. -/

namespace Nerfnet

structure ResolvedIrqTarget where
  chipName : String
  chipLabel : String := ""
  lineOffset : Nat := 0
  globalGpio : Int := -1
  deriving DecidableEq

/-- A chip as `gpiod_foreach_chip` comes to it, with `none` for a null pointer. -/
structure GpiodChip where
  name : Option String
  label : Option String
  numLines : Nat
  deriving DecidableEq

/-- An entry of `/sys/class/gpio`, with what `ReadIntFile` and `ReadTextFile` return for its files. -/
structure SysfsEntry where
  isDirectory : Bool
  name : String
  base : Option Int32
  ngpio : Option Int32
  label : String
  deriving DecidableEq

/-- What `directory_iterator` throws where there is no `/sys/class/gpio`. -/
structure FilesystemError where
  deriving DecidableEq

/-- Without an iterator over the chips `chips` is `none`. The last three functions say whether
    `gpiod_chip_open_by_name`, `gpiod_chip_get_line` and `gpiod_line_request_falling_edge_events`
    succeed. -/
structure GpioSystem where
  sysfs : Except FilesystemError (List SysfsEntry)
  chips : Option (List GpiodChip)
  opens : String → Bool
  hasLine : String → Nat → Bool
  requests : String → Nat → Bool

def toLower (value : String) : List Char := value.toList.map Char.toLower

def isPreferredGpioChipLabel (label : String) : Bool :=
  ["pinctrl", "raspberry", "bcm", "gpio"].any fun part => part.toList <:+: toLower label

/-! ### The lookup -/

namespace GpioSystem

/-- The chip with the label and the number of lines, or else the first one with the label. -/
def findChipNameByLabelAndLines (system : GpioSystem) (label : String) (numLines : Nat) : Option String :=
  system.chips.bind <| Search.scan (fun chip => if chip.label = some label then chip.name else none)
    (fun chip => chip.numLines = numLines) none

/-- The body of the loop of `ResolveIrqTargetFromGlobal`, `none` where it goes on. -/
def resolveInEntry (system : GpioSystem) (globalGpio : Int) (entry : SysfsEntry) : Option ResolvedIrqTarget :=
  if !entry.isDirectory then none
  else if ¬"gpiochip".toList <+: entry.name.toList then none
  else
    match entry.base, entry.ngpio with
    | some base, some ngpio =>
      -- The sum is one of `int`s. Where it overflows, which C++ leaves undefined, it wraps around.
      if globalGpio < base.toInt ∨ (base + ngpio).toInt ≤ globalGpio then none
      else (system.findChipNameByLabelAndLines entry.label (ngpio.toInt % 2 ^ 32).toNat).map fun chipName =>
        { chipName, chipLabel := entry.label, lineOffset := ((globalGpio - base.toInt) % 2 ^ 32).toNat, globalGpio }
    | _, _ => none

def resolveIrqTargetFromGlobal (system : GpioSystem) (globalGpio : Int) : Except FilesystemError (Option ResolvedIrqTarget) :=
  system.sysfs.map (·.findSome? (system.resolveInEntry globalGpio))

/-- The chip with a preferred label that has the line, or else the first one that has it. -/
def resolveIrqTargetFromOffset (system : GpioSystem) (lineOffset : Int) : Option ResolvedIrqTarget :=
  system.chips.bind <| Search.scan
    (fun chip =>
      if lineOffset < 0 ∨ chip.numLines ≤ lineOffset.toNat then none
      else chip.name.map fun chipName => { chipName, chipLabel := chip.label.getD "", lineOffset := lineOffset.toNat })
    (fun chip => isPreferredGpioChipLabel (chip.label.getD "")) none

def resolveIrqTarget (system : GpioSystem) (irqPin : Int) : Except FilesystemError (Option ResolvedIrqTarget) :=
  if irqPin < 0 then .ok none
  else (system.resolveIrqTargetFromGlobal irqPin).map fun target => target.or (system.resolveIrqTargetFromOffset irqPin)

end GpioSystem

/-! ### The handles -/

/-- A call of libgpiod on the handles that an interface holds, or one of `DriverCall`. -/
inductive GpiodCall where
  | chipOpenByName (name : String) (ok : Bool)
  | chipGetLine (offset : Nat) (ok : Bool)
  | lineRequestFallingEdgeEvents (ok : Bool)
  | lineRelease
  | chipClose
  | driver (call : DriverCall)
  deriving DecidableEq

/-- `irq_chip_` is the chip that is open, by its name, and `irq_line_` a line of it, by its offset. -/
structure IrqLine where
  irqChip : Option String := none
  irqLine : Option Nat := none
  resolvedIrqChipName : String := ""
  resolvedIrqLineOffset : Nat := 0
  resolvedIrqGlobalGpio : Int := -1
  deriving DecidableEq

namespace IrqLine

/-- With the calls that it makes. -/
def cleanupIrq (s : IrqLine) : IrqLine × List GpiodCall :=
  ({}, (if s.irqLine.isSome then [.lineRelease] else []) ++ if s.irqChip.isSome then [.chipClose] else [])

/-- With what it returns and the calls that it makes. -/
def initializeIrq (system : GpioSystem) (irqPin : Int) (s : IrqLine) :
    Except FilesystemError (IrqLine × Bool × List GpiodCall) :=
  if irqPin < 0 then .ok (s, false, [])
  else
    (system.resolveIrqTarget irqPin).map fun target =>
      match target with
      | none => (s, false, [])
      | some target =>
        let opening := GpiodCall.chipOpenByName target.chipName (system.opens target.chipName)
        if !system.opens target.chipName then ({ s with irqChip := none }, false, [opening])
        else
          let s := { s with irqChip := some target.chipName }
          let getting := GpiodCall.chipGetLine target.lineOffset (system.hasLine target.chipName target.lineOffset)
          if !system.hasLine target.chipName target.lineOffset then
            let cleaned := { s with irqLine := none }.cleanupIrq
            (cleaned.1, false, [opening, getting] ++ cleaned.2)
          else
            let s := { s with irqLine := some target.lineOffset }
            let requesting := GpiodCall.lineRequestFallingEdgeEvents (system.requests target.chipName target.lineOffset)
            if !system.requests target.chipName target.lineOffset then
              (s.cleanupIrq.1, false, [opening, getting, requesting] ++ s.cleanupIrq.2)
            else
              ({ s with
                  resolvedIrqChipName := target.chipName
                  resolvedIrqLineOffset := target.lineOffset
                  resolvedIrqGlobalGpio := target.globalGpio }, true, [opening, getting, requesting])

/-- What the constructor of `RadioInterface` does about the line. -/
def construct (system : GpioSystem) (irqPin : Int) : Except FilesystemError (IrqLine × List GpiodCall) :=
  if irqPin < 0 then .ok ({}, []) else (initializeIrq system irqPin {}).map fun (s, _, calls) => (s, calls)

end IrqLine

end Nerfnet
