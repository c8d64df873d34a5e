import Famiclone.Console
import Famiclone.Picture.Text

/-!
# The console as text

One line that shows the state of the console to someone who looks for a fault.
-/
namespace Famiclone

/-- The names of the flags, lowest first. -/
def Status.names : List String :=
  ["CARRY", "ZERO", "INTERRUPT_DISABLE", "DECIMAL", "BREAK", "UNUSED", "OVERFLOW", "NEGATIVE"]

def Status.text (p : Status) : String := flagText "StatusFlags" names p.toByte

/-- The names of the interrupt lines, lowest first. -/
def Lines.names : List String := ["NMI", "IRQ_FRAME", "IRQ_DMC", "IRQ_MAPPER", "IRQ_EXTERNAL"]

/-- The interrupt lines in one byte. -/
def Lines.toByte (l : Lines) : UInt8 :=
  UInt8.ofNat (l.nmi.toNat + 2 * l.frame.toNat + 4 * l.sample.toNat + 8 * l.board.toNat +
    16 * l.external.toNat)

def Lines.text (l : Lines) : String := flagText "Interrupt" names l.toByte

def Registers.text (r : Registers) : String :=
  fieldsText "CpuRegisters" [
    ("a", toString r.a.toNat),
    ("x", toString r.x.toNat),
    ("y", toString r.y.toNat),
    ("p", r.p.text),
    ("sp", toString r.sp.toNat),
    ("pc", toString r.pc.toNat)]

def Processor.text (c : Processor) : String :=
  fieldsText "Cpu" [
    ("registers", c.registers.text),
    ("cycles", toString c.cycles),
    ("strict", toString c.strict),
    ("jammed", toString c.jammed),
    ("requested", c.requested.text),
    ("nmi_line", toString c.nmiLine),
    ("need_nmi", toString c.nmiLatched),
    ("prev_need_nmi", toString c.nmiPolled),
    ("run_irq", toString c.irqSampled),
    ("prev_run_irq", toString c.irqPolled)]

def Header.text (h : Header) : String :=
  fieldsText "InesHeader" [
    ("prg_rom_size", toString h.prgUnits),
    ("chr_rom_size", toString h.chrUnits),
    ("flags_6", toString h.flags6.toNat),
    ("flags_7", toString h.flags7.toNat),
    ("byte_8", toString h.byte8.toNat),
    ("byte_9", toString h.byte9.toNat),
    ("byte_10", toString h.byte10.toNat),
    ("byte_11", toString h.byte11.toNat),
    ("byte_12", toString h.byte12.toNat)]

def Label.text (l : Label) : String :=
  fieldsText "LoadedCartridge" [("header", l.header.text), ("id", "\"" ++ l.id ++ "\"")]

/-- The console in one line, which does not show all of it. -/
def Console.text (c : Console) : String :=
  let label := match c.label with
    | some l => "Some(" ++ l.text ++ ")"
    | none => "None"
  "Nes \x7b region: " ++ c.region.name ++ ", cpu: " ++ c.cpu.text ++ ", cartridge: " ++ label ++
    ", frames: " ++ toString c.frames ++ ", .. \x7d"

end Famiclone
