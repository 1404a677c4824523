import Mips32.InstructionSet.Basic

namespace Mips32.Standard

def noOperands : Shape := ⟨.r, "iname".toList, [], rfl⟩

def rdRtShamt : Shape := ⟨.r, "iname rd, rt, shamt".toList, [.rd, .rt, .shamt], rfl⟩

def rdRtRs : Shape := ⟨.r, "iname rd, rt, rs".toList, [.rd, .rt, .rs], rfl⟩

def rsOnly : Shape := ⟨.r, "iname rs".toList, [.rs], rfl⟩

def rdRs : Shape := ⟨.r, "iname rd, rs".toList, [.rd, .rs], rfl⟩

def rdRsRt : Shape := ⟨.r, "iname rd, rs, rt".toList, [.rd, .rs, .rt], rfl⟩

def rdOnly : Shape := ⟨.r, "iname rd".toList, [.rd], rfl⟩

def rsRt : Shape := ⟨.r, "iname rs, rt".toList, [.rs, .rt], rfl⟩

def rsOffset : Shape := ⟨.i, "iname rs, offset".toList, [.rs, .offset], rfl⟩

def targetOnly : Shape := ⟨.j, "iname target".toList, [.target], rfl⟩

def rsRtOffset : Shape := ⟨.i, "iname rs, rt, offset".toList, [.rs, .rt, .offset], rfl⟩

def rtRsOffset : Shape := ⟨.i, "iname rt, rs, offset".toList, [.rt, .rs, .offset], rfl⟩

def rtOffset : Shape := ⟨.i, "iname rt, offset".toList, [.rt, .offset], rfl⟩

def rtAddress : Shape := ⟨.i, "iname rt, address".toList, [.rt, .address], rfl⟩

def hintAddress : Shape := ⟨.i, "iname hint, address".toList, [.hint, .address], rfl⟩

def exitAlone : Shape := ⟨.exit, "iname".toList, [], rfl⟩

def operation (name : String) (opcode : BitVec 8) (discriminant : Option Discriminant)
    (shape : Shape) (kind : Option Kind) (description mnemonic : String) (word : Word) :
    Operation :=
  ⟨name.toList, opcode, discriminant, shape, kind, description, some ⟨mnemonic.toList, word⟩⟩

/-- An operation of the SPECIAL group. -/
def special (name : String) (funct : BitVec 8) : Shape → Option Kind → String → String →
    Word → Operation :=
  operation name 0x00 (some (.funct funct))

def regimm (name : String) (rt : BitVec 8) : Option Kind → String → String → Word → Operation :=
  operation name 0x01 (some (.rt rt)) rsOffset

def special2 (name : String) (funct : BitVec 8) : Shape → Option Kind → String → String →
    Word → Operation :=
  operation name 0x1c (some (.funct funct))

def immediate (name : String) (opcode : BitVec 8) : Shape → Option Kind → String → String →
    Word → Operation :=
  operation name opcode none

def jump (name : String) (opcode : BitVec 8) : Option Kind → String → String → Word → Operation :=
  operation name opcode none targetOnly

def specialGroup : List Operation :=
  [special "sll" 0x00 rdRtShamt (some .shift) "Shift left logical" "sll $t1, $t2, 10" 0x000a4a80,
    special "srl" 0x02 rdRtShamt (some .shift) "Shift right logical" "srl $t1, $t2, 10" 0x000a4a82,
    special "sra" 0x03 rdRtShamt (some .shift) "Shift right arithmetic"
      "sra $t1, $t2, 10" 0x000a4a83,
    special "sllv" 0x04 rdRtRs (some .shift) "Shift left logical by a register amount"
      "sllv $t1, $t2, $t3" 0x016a4804,
    special "srlv" 0x06 rdRtRs (some .shift) "Shift right logical by a register amount"
      "srlv $t1, $t2, $t3" 0x016a4806,
    special "srav" 0x07 rdRtRs (some .shift) "Shift right arithmetic by a register amount"
      "srav $t1, $t2, $t3" 0x016a4807,
    special "jr" 0x08 rsOnly (some .jump) "Jump to the address in a register" "jr $t1" 0x01200008,
    special "jalr" 0x09 rdRs (some .jumpAndLink) "Jump to the address in rs, return address in rd"
      "jalr $t1, $t2" 0x01404809,
    special "movz" 0x0a rdRsRt none "Move rs to rd if rt is zero" "movz $t1, $t2, $t3" 0x014b480a,
    special "movn" 0x0b rdRsRt none "Move rs to rd if rt is not zero"
      "movn $t1, $t2, $t3" 0x014b480b,
    special "syscall" 0x0c noOperands (some .exception) "System call" "syscall" 0x0000000c,
    special "break" 0x0d noOperands (some .exception) "Breakpoint" "break" 0x0000000d,
    special "sync" 0x0f noOperands none "Order loads and stores" "sync" 0x0000000f,
    special "mfhi" 0x10 rdOnly none "Move from HI" "mfhi $t1" 0x00004810,
    special "mthi" 0x11 rsOnly none "Move to HI" "mthi $t1" 0x01200011,
    special "mflo" 0x12 rdOnly none "Move from LO" "mflo $t1" 0x00004812,
    special "mtlo" 0x13 rsOnly none "Move to LO" "mtlo $t1" 0x01200013,
    special "mult" 0x18 rsRt none "Signed multiplication into HI and LO"
      "mult $t1, $t2" 0x012a0018,
    special "multu" 0x19 rsRt none "Unsigned multiplication into HI and LO"
      "multu $t1, $t2" 0x012a0019,
    special "div" 0x1a rsRt none "Signed division, quotient in LO, remainder in HI"
      "div $t1, $t2" 0x012a001a,
    special "divu" 0x1b rsRt none "Unsigned division, quotient in LO, remainder in HI"
      "divu $t1, $t2" 0x012a001b,
    special "add" 0x20 rdRsRt none "Addition, trapping on overflow" "add $t1, $t2, $t3" 0x014b4820,
    special "addu" 0x21 rdRsRt none "Addition without overflow" "addu $t1, $t2, $t3" 0x014b4821,
    special "sub" 0x22 rdRsRt none "Subtraction, trapping on overflow"
      "sub $t1, $t2, $t3" 0x014b4822,
    special "subu" 0x23 rdRsRt none "Subtraction without overflow" "subu $t1, $t2, $t3" 0x014b4823,
    special "and" 0x24 rdRsRt none "Bitwise and" "and $t1, $t2, $t3" 0x014b4824,
    special "or" 0x25 rdRsRt none "Bitwise or" "or $t1, $t2, $t3" 0x014b4825,
    special "xor" 0x26 rdRsRt none "Bitwise exclusive or" "xor $t1, $t2, $t3" 0x014b4826,
    special "nor" 0x27 rdRsRt none "Bitwise not or" "nor $t1, $t2, $t3" 0x014b4827,
    special "slt" 0x2a rdRsRt none "Set rd to 1 if rs < rt (signed)"
      "slt $t1, $t2, $t3" 0x014b482a,
    special "sltu" 0x2b rdRsRt none "Set rd to 1 if rs < rt (unsigned)"
      "sltu $t1, $t2, $t3" 0x014b482b,
    special "tge" 0x30 rsRt (some .trap) "Trap if rs >= rt (signed)" "tge $t1, $t2" 0x012a0030,
    special "tgeu" 0x31 rsRt (some .trap) "Trap if rs >= rt (unsigned)" "tgeu $t1, $t2" 0x012a0031,
    special "tlt" 0x32 rsRt (some .trap) "Trap if rs < rt (signed)" "tlt $t1, $t2" 0x012a0032,
    special "tltu" 0x33 rsRt (some .trap) "Trap if rs < rt (unsigned)" "tltu $t1, $t2" 0x012a0033,
    special "teq" 0x34 rsRt (some .trap) "Trap if rs == rt" "teq $t1, $t2" 0x012a0034,
    special "tne" 0x36 rsRt (some .trap) "Trap if rs != rt" "tne $t1, $t2" 0x012a0036]

def regimmGroup : List Operation :=
  [regimm "bltz" 0x00 (some .branch) "Branch if rs < 0" "bltz $t1, 5" 0x05200005,
    regimm "bgez" 0x01 (some .branch) "Branch if rs >= 0" "bgez $t1, 5" 0x05210005,
    regimm "bltzl" 0x02 (some .branch) "Branch likely if rs < 0" "bltzl $t1, 5" 0x05220005,
    regimm "bgezl" 0x03 (some .branch) "Branch likely if rs >= 0" "bgezl $t1, 5" 0x05230005,
    regimm "tgei" 0x08 (some .trap) "Trap if rs >= immediate (signed)" "tgei $t1, 5" 0x05280005,
    regimm "tgeiu" 0x09 (some .trap) "Trap if rs >= immediate (unsigned)"
      "tgeiu $t1, 5" 0x05290005,
    regimm "tlti" 0x0a (some .trap) "Trap if rs < immediate (signed)" "tlti $t1, 5" 0x052a0005,
    regimm "tltiu" 0x0b (some .trap) "Trap if rs < immediate (unsigned)" "tltiu $t1, 5" 0x052b0005,
    regimm "teqi" 0x0c (some .trap) "Trap if rs == immediate" "teqi $t1, 5" 0x052c0005,
    regimm "tnei" 0x0e (some .trap) "Trap if rs != immediate" "tnei $t1, 5" 0x052e0005,
    regimm "bltzal" 0x10 (some .branch) "Branch and link if rs < 0" "bltzal $t1, 10" 0x0530000a,
    regimm "bgezal" 0x11 (some .branch) "Branch and link if rs >= 0" "bgezal $t1, 10" 0x0531000a,
    regimm "bltzall" 0x12 (some .branch) "Branch likely and link if rs < 0"
      "bltzall $t1, 10" 0x0532000a,
    regimm "bgezall" 0x13 (some .branch) "Branch likely and link if rs >= 0"
      "bgezall $t1, 10" 0x0533000a]

def jumps : List Operation :=
  [jump "j" 0x02 (some .jump) "Jump" "j 4" 0x08000004,
    jump "jal" 0x03 (some .jumpAndLink) "Jump and link, target given as a byte address"
      "jal 4" 0x0c000001]

def immediates : List Operation :=
  [immediate "beq" 0x04 rsRtOffset (some .branch) "Branch if rs == rt"
      "beq $t1, $t2, 4" 0x112a0004,
    immediate "bne" 0x05 rsRtOffset (some .branch) "Branch if rs != rt"
      "bne $t1, $t2, 4" 0x152a0004,
    immediate "blez" 0x06 rsOffset (some .branch) "Branch if rs <= 0" "blez $t1, 4" 0x19200004,
    immediate "bgtz" 0x07 rsOffset (some .branch) "Branch if rs > 0" "bgtz $t1, 4" 0x1d200004,
    immediate "addi" 0x08 rtRsOffset none "Add immediate, trapping on overflow"
      "addi $t1, $t2, 4" 0x21490004,
    immediate "addiu" 0x09 rtRsOffset none "Add immediate without overflow"
      "addiu $t1, $t2, 4" 0x25490004,
    immediate "slti" 0x0a rtRsOffset none "Set rt to 1 if rs < immediate (signed)"
      "slti $t1, $t2, 4" 0x29490004,
    immediate "sltiu" 0x0b rtRsOffset none "Set rt to 1 if rs < immediate (unsigned)"
      "sltiu $t1, $t2, 4" 0x2d490004,
    immediate "andi" 0x0c rtRsOffset none "Bitwise and with an immediate"
      "andi $t1, $t2, 4" 0x31490004,
    immediate "ori" 0x0d rtRsOffset none "Bitwise or with an immediate"
      "ori $t1, $t2, 4" 0x35490004,
    immediate "xori" 0x0e rtRsOffset none "Bitwise exclusive or with an immediate"
      "xori $t1, $t2, 4" 0x39490004,
    immediate "lui" 0x0f rtOffset none "Load the immediate into the upper half of rt"
      "lui $t1, 4" 0x3c090004,
    immediate "beql" 0x14 rsRtOffset (some .branch) "Branch likely if rs == rt"
      "beql $t1, $t2, 6" 0x512a0006,
    immediate "bnel" 0x15 rsRtOffset (some .branch) "Branch likely if rs != rt"
      "bnel $t1, $t2, 6" 0x552a0006,
    immediate "blezl" 0x16 rsOffset (some .branch) "Branch likely if rs <= 0"
      "blezl $t1, 6" 0x59200006,
    immediate "bgtzl" 0x17 rsOffset (some .branch) "Branch likely if rs > 0"
      "bgtzl $t1, 6" 0x5d200006]

def special2Group : List Operation :=
  [special2 "madd" 0x00 rsRt none "Multiply and add to HI and LO" "madd $t1, $t2" 0x712a0000,
    special2 "maddu" 0x01 rsRt none "Multiply and add to HI and LO (unsigned)"
      "maddu $t1, $t2" 0x712a0001,
    special2 "mul" 0x02 rdRsRt none "Multiply, low word into rd" "mul $v0, $a0, $v0" 0x70821002,
    special2 "msub" 0x04 rsRt none "Multiply and subtract from HI and LO"
      "msub $t1, $t2" 0x712a0004,
    special2 "msubu" 0x05 rsRt none "Multiply and subtract from HI and LO (unsigned)"
      "msubu $t1, $t2" 0x712a0005,
    special2 "clz" 0x20 rdRs none "Count leading zeroes" "clz $t1, $t2" 0x71404820,
    special2 "clo" 0x21 rdRs none "Count leading ones" "clo $t1, $t2" 0x71404821]

def memoryAccesses : List Operation :=
  [immediate "lb" 0x20 rtAddress (some .load) "Load byte, sign-extended"
      "lb $t1, 7($t2)" 0x81490007,
    immediate "lh" 0x21 rtAddress (some .load) "Load halfword, sign-extended"
      "lh $t1, 8($t2)" 0x85490008,
    immediate "lwl" 0x22 rtAddress (some .load) "Load word left" "lwl $t1, 9($t2)" 0x89490009,
    immediate "lw" 0x23 rtAddress (some .load) "Load word" "lw $t1, 10($t2)" 0x8d49000a,
    immediate "lbu" 0x24 rtAddress (some .load) "Load byte, zero-extended"
      "lbu $t1, 11($t2)" 0x9149000b,
    immediate "lhu" 0x25 rtAddress (some .load) "Load halfword, zero-extended"
      "lhu $t1, 12($t2)" 0x9549000c,
    immediate "lwr" 0x26 rtAddress (some .load) "Load word right" "lwr $t1, 13($t2)" 0x9949000d,
    immediate "sb" 0x28 rtAddress (some .store) "Store byte" "sb $t1, 4($t2)" 0xa1490004,
    immediate "sh" 0x29 rtAddress (some .store) "Store halfword" "sh $t1, 4($t2)" 0xa5490004,
    immediate "swl" 0x2a rtAddress (some .store) "Store word left" "swl $t1, 4($t2)" 0xa9490004,
    immediate "sw" 0x2b rtAddress (some .store) "Store word" "sw $ra, 4($sp)" 0xafbf0004,
    immediate "swr" 0x2e rtAddress (some .store) "Store word right" "swr $ra, 4($sp)" 0xbbbf0004,
    immediate "ll" 0x30 rtAddress (some .load) "Load linked word" "ll $ra, 4($sp)" 0xc3bf0004,
    immediate "lwc1" 0x31 rtAddress (some .load) "Load word to coprocessor 1"
      "lwc1 $ra, 4($sp)" 0xc7bf0004,
    immediate "lwc2" 0x32 rtAddress (some .load) "Load word to coprocessor 2"
      "lwc2 $ra, 4($sp)" 0xcbbf0004,
    immediate "pref" 0x33 hintAddress none "Prefetch into the cache" "pref 1, 2($sp)" 0xcfa10002,
    immediate "ldc1" 0x35 rtAddress (some .load) "Load doubleword to coprocessor 1"
      "ldc1 $t1, 4($sp)" 0xd7a90004,
    immediate "ldc2" 0x36 rtAddress (some .load) "Load doubleword to coprocessor 2"
      "ldc2 $t1, 4($sp)" 0xdba90004,
    immediate "sc" 0x38 rtAddress (some .store) "Store conditional word"
      "sc $t1, 4($sp)" 0xe3a90004,
    immediate "swc1" 0x39 rtAddress (some .store) "Store word from coprocessor 1"
      "swc1 $t1, 4($sp)" 0xe7a90004,
    immediate "swc2" 0x3a rtAddress (some .store) "Store word from coprocessor 2"
      "swc2 $t1, 4($sp)" 0xeba90004,
    immediate "sdc1" 0x3d rtAddress (some .store) "Store doubleword from coprocessor 1"
      "sdc1 $t1, 4($sp)" 0xf7a90004,
    immediate "sdc2" 0x3e rtAddress (some .store) "Store doubleword from coprocessor 2"
      "sdc2 $t1, 4($sp)" 0xfba90004]

def nop : Operation :=
  operation "nop" 0x00 none noOperands none "No operation" "nop" 0x00000000

def exit : Operation :=
  operation "exit" 0x3f none exitAlone none "Stop the simulation" "exit" 0xfc000000

/-- Every supported operation, in the order of the listing. -/
def operations : List Operation :=
  nop :: specialGroup ++ regimmGroup ++ jumps ++ immediates ++ special2Group ++
    memoryAccesses ++ [exit]

end Mips32.Standard

namespace Mips32

def InstructionSet.standard : InstructionSet := .ofList Standard.operations

end Mips32
