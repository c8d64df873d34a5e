import Famiclone.Processor.Instruction

/-!
# Decoding

An opcode has three fields: the two lowest bits choose a group, the three highest an operation in
it, and the three between them the addressing mode. Within a group the operation and the mode are
nearly independent; the exceptions stand first.
-/
namespace Famiclone.Instruction

/-- The mode that the middle field names in the groups of arithmetic. -/
def arithmeticMode : Nat → Mode
  | 0 => .indirectX
  | 1 => .zeroPage
  | 2 => .immediate
  | 3 => .absolute
  | 4 => .indirectY
  | 5 => .zeroPageX
  | 6 => .absoluteY
  | _ => .absoluteX

/-- The same for instructions that keep `X` as their operand: they are indexed by `Y`. -/
def byY : Mode → Mode
  | .zeroPageX => .zeroPageY
  | .absoluteX => .absoluteY
  | m => m

/-- Group one: the official arithmetic. -/
def arithmetic (operation mode : Nat) : Instruction :=
  let m := arithmeticMode mode
  match operation with
  | 0 => read .ora m
  | 1 => read .and m
  | 2 => read .eor m
  | 3 => read .adc m
  | 4 => if mode = 2 then read .nop m else store .sta m
  | 5 => read .lda m
  | 6 => read .cmp m
  | _ => read .sbc m

/-- Group three: unofficial compounds of groups one and two. -/
def compound (operation mode : Nat) : Instruction :=
  let m := arithmeticMode mode
  match operation, mode with
  | 0, 2 | 1, 2 => read .anc m
  | 2, 2 => read .alr m
  | 3, 2 => read .arr m
  | 4, 2 => read .ane m
  | 5, 2 => read .lxa m
  | 6, 2 => read .axs m
  | 7, 2 => read .sbc m
  | 4, 4 => maskedStore .sha m
  | 4, 6 => maskedStore .tas m
  | 4, 7 => maskedStore .sha (byY m)
  | 5, 6 => read .las m
  | 0, _ => modify .slo m
  | 1, _ => modify .rla m
  | 2, _ => modify .sre m
  | 3, _ => modify .rra m
  | 4, _ => store .sax (byY m)
  | 5, _ => read .lax (byY m)
  | 6, _ => modify .dcp m
  | _, _ => modify .isc m

/-- The mode that the middle field names in the groups of shifts and of control, where it does not
choose an instruction of its own. -/
def plainMode : Nat → Mode
  | 1 => .zeroPage
  | 3 => .absolute
  | 5 => .zeroPageX
  | 7 => .absoluteX
  | _ => .immediate

/-- Group two: shifts, increments, and the loads and stores of `X`. -/
def shift (operation mode : Nat) : Instruction :=
  let m := plainMode mode
  match operation, mode with
  | 5, 0 => read .ldx .immediate
  | 4, 0 | 6, 0 | 7, 0 => read .nop .immediate
  | _, 0 | _, 4 => jam
  | 0, 2 => accumulator .asl
  | 1, 2 => accumulator .rol
  | 2, 2 => accumulator .lsr
  | 3, 2 => accumulator .ror
  | 4, 2 => register .txa
  | 5, 2 => register .tax
  | 6, 2 => register .dex
  | _, 2 => register .nop
  | 4, 6 => register .txs
  | 5, 6 => register .tsx
  | _, 6 => register .nop
  | 4, 7 => maskedStore .shx .absoluteY
  | 0, _ => modify .asl m
  | 1, _ => modify .rol m
  | 2, _ => modify .lsr m
  | 3, _ => modify .ror m
  | 4, _ => store .stx (byY m)
  | 5, _ => read .ldx (byY m)
  | 6, _ => modify .dec m
  | _, _ => modify .inc m

/-- Group zero: control flow, flags, the stack, and the loads, stores and comparisons of `Y`. -/
def control (operation mode : Nat) : Instruction :=
  let m := plainMode mode
  match operation, mode with
  | 0, 0 => brk
  | 1, 0 => jsr
  | 2, 0 => rti
  | 3, 0 => rts
  | 0, 2 => php
  | 1, 2 => plp
  | 2, 2 => pha
  | 3, 2 => pla
  | 4, 2 => register .dey
  | 5, 2 => register .tay
  | 6, 2 => register .iny
  | _, 2 => register .inx
  | 0, 4 => branch .negative false
  | 1, 4 => branch .negative true
  | 2, 4 => branch .overflow false
  | 3, 4 => branch .overflow true
  | 4, 4 => branch .carry false
  | 5, 4 => branch .carry true
  | 6, 4 => branch .zero false
  | _, 4 => branch .zero true
  | 0, 6 => register .clc
  | 1, 6 => register .sec
  | 2, 6 => register .cli
  | 3, 6 => register .sei
  | 4, 6 => register .tya
  | 5, 6 => register .clv
  | 6, 6 => register .cld
  | _, 6 => register .sed
  | 2, 3 => jmp false
  | 3, 3 => jmp true
  | 1, 1 | 1, 3 => read .bit m
  | 4, 0 => read .nop m
  | 4, 7 => maskedStore .shy m
  | 4, _ => store .sty m
  | 5, _ => read .ldy m
  | 6, 0 | 6, 1 | 6, 3 => read .cpy m
  | 7, 0 | 7, 1 | 7, 3 => read .cpx m
  | _, _ => read .nop m

def decode (opcode : UInt8) : Instruction :=
  let n := opcode.toNat
  let operation := n / 32
  let mode := n / 4 % 8
  match n % 4 with
  | 0 => control operation mode
  | 1 => arithmetic operation mode
  | 2 => shift operation mode
  | _ => compound operation mode

def isOfficial (opcode : UInt8) : Bool :=
  match decode opcode with
  | .register .nop => opcode == 0xEA
  | .read .sbc _ => opcode != 0xEB
  | .read op _ =>
    match op with
    | .lax | .anc | .alr | .arr | .ane | .lxa | .axs | .las | .nop => false
    | _ => true
  | .store .sax _ | .maskedStore _ _ | .jam => false
  | .modify op _ =>
    match op with
    | .slo | .rla | .sre | .rra | .dcp | .isc => false
    | _ => true
  | _ => true

end Famiclone.Instruction
