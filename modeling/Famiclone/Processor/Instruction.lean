/-!
# Instructions

The instructions of the processor, sorted by how they use the bus: those that read an operand,
store, modify memory, branch, work on registers alone, and the few that move the program counter or
the stack. The unofficial ones take their places among them.
-/
namespace Famiclone

/-- How the address of an operand is found. -/
inductive Mode where
  | immediate
  | zeroPage
  | zeroPageX
  | zeroPageY
  | absolute
  | absoluteX
  | absoluteY
  | indirectX
  | indirectY
  deriving DecidableEq, Repr

/-- Instructions that read an operand and work on registers. -/
inductive ReadOp where
  | lda | ldx | ldy | adc | sbc | and | ora | eor | cmp | cpx | cpy | bit
  | lax | anc | alr | arr | ane | lxa | axs | las | nop
  deriving DecidableEq, Repr

/-- Instructions that store a register. -/
inductive StoreOp where
  | sta | stx | sty | sax
  deriving DecidableEq, Repr

/-- Instructions that store a register masked by the high byte of the address. -/
inductive MaskedStoreOp where
  | sha | shx | shy | tas
  deriving DecidableEq, Repr

/-- Instructions that read a byte and write it back changed. -/
inductive ModifyOp where
  | asl | lsr | rol | ror | inc | dec | slo | rla | sre | rra | dcp | isc
  deriving DecidableEq, Repr

/-- Instructions that work on registers alone. -/
inductive RegisterOp where
  | clc | sec | cli | sei | cld | sed | clv
  | tax | tay | txa | tya | tsx | txs | inx | iny | dex | dey | nop
  deriving DecidableEq, Repr

/-- The flags that branches look at. -/
inductive BranchFlag where
  | carry | zero | negative | overflow
  deriving DecidableEq, Repr

inductive Instruction where
  | read (op : ReadOp) (mode : Mode)
  | store (op : StoreOp) (mode : Mode)
  | maskedStore (op : MaskedStoreOp) (mode : Mode)
  | modify (op : ModifyOp) (mode : Mode)
  /-- A modifying instruction on the accumulator. -/
  | accumulator (op : ModifyOp)
  /-- Branch when the flag has the given value. -/
  | branch (flag : BranchFlag) (whenSet : Bool)
  | register (op : RegisterOp)
  /-- Jump to the operand, or to the address that is stored there. -/
  | jmp (indirect : Bool)
  | jsr
  | rts
  | rti
  | brk
  | pha
  | php
  | pla
  | plp
  /-- Stops the processor until a reset. -/
  | jam
  deriving DecidableEq, Repr

def Mode.name : Mode → String
  | immediate => "Immediate"
  | zeroPage => "ZeroPage"
  | zeroPageX => "ZeroPageX"
  | zeroPageY => "ZeroPageY"
  | absolute => "Absolute"
  | absoluteX => "AbsoluteX"
  | absoluteY => "AbsoluteY"
  | indirectX => "IndirectX"
  | indirectY => "IndirectY"

/-- Bytes of operand that an addressing mode takes from the program. -/
def Mode.operandLength : Mode → Nat
  | immediate | zeroPage | zeroPageX | zeroPageY | indirectX | indirectY => 1
  | absolute | absoluteX | absoluteY => 2

def ReadOp.mnemonic : ReadOp → String
  | lda => "LDA" | ldx => "LDX" | ldy => "LDY" | adc => "ADC" | sbc => "SBC" | and => "AND"
  | ora => "ORA" | eor => "EOR" | cmp => "CMP" | cpx => "CPX" | cpy => "CPY" | bit => "BIT"
  | lax => "LAX" | anc => "ANC" | alr => "ALR" | arr => "ARR" | ane => "ANE" | lxa => "LXA"
  | axs => "AXS" | las => "LAS" | nop => "NOP"

def StoreOp.mnemonic : StoreOp → String
  | sta => "STA" | stx => "STX" | sty => "STY" | sax => "SAX"

def MaskedStoreOp.mnemonic : MaskedStoreOp → String
  | sha => "SHA" | shx => "SHX" | shy => "SHY" | tas => "TAS"

def ModifyOp.mnemonic : ModifyOp → String
  | asl => "ASL" | lsr => "LSR" | rol => "ROL" | ror => "ROR" | inc => "INC" | dec => "DEC"
  | slo => "SLO" | rla => "RLA" | sre => "SRE" | rra => "RRA" | dcp => "DCP" | isc => "ISC"

def RegisterOp.mnemonic : RegisterOp → String
  | clc => "CLC" | sec => "SEC" | cli => "CLI" | sei => "SEI" | cld => "CLD" | sed => "SED"
  | clv => "CLV" | tax => "TAX" | tay => "TAY" | txa => "TXA" | tya => "TYA" | tsx => "TSX"
  | txs => "TXS" | inx => "INX" | iny => "INY" | dex => "DEX" | dey => "DEY" | nop => "NOP"

namespace Instruction

def mnemonic : Instruction → String
  | read op _ => op.mnemonic
  | store op _ => op.mnemonic
  | maskedStore op _ => op.mnemonic
  | modify op _ => op.mnemonic
  | accumulator op => op.mnemonic
  | branch .carry false => "BCC"
  | branch .carry true => "BCS"
  | branch .zero false => "BNE"
  | branch .zero true => "BEQ"
  | branch .negative false => "BPL"
  | branch .negative true => "BMI"
  | branch .overflow false => "BVC"
  | branch .overflow true => "BVS"
  | register op => op.mnemonic
  | jmp _ => "JMP"
  | jsr => "JSR"
  | rts => "RTS"
  | rti => "RTI"
  | brk => "BRK"
  | pha => "PHA"
  | php => "PHP"
  | pla => "PLA"
  | plp => "PLP"
  | jam => "JAM"

def modeName : Instruction → String
  | read _ mode | store _ mode | maskedStore _ mode | modify _ mode => mode.name
  | accumulator _ => "Accumulator"
  | branch _ _ => "Relative"
  | jmp true => "Indirect"
  | jmp false | jsr => "Absolute"
  | register _ | rts | rti | brk | pha | php | pla | plp | jam => "Implied"

/-- Bytes of operand that follow the opcode. -/
def operandLength : Instruction → Nat
  | read _ mode | store _ mode | maskedStore _ mode | modify _ mode => mode.operandLength
  | branch _ _ => 1
  | jmp _ | jsr => 2
  | accumulator _ | register _ | rts | rti | brk | pha | php | pla | plp | jam => 0

end Instruction

end Famiclone
