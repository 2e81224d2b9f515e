/-
This file shows that the outline of a listing is the outline of the module it was written from. Every
line of a listing begins in a way that no line of another kind begins, so the reader puts each line
where the writer had it. Names may hold anything else: what breaks a line, what looks like the indent
of a body, and what ends the name of a function or its return type too early is left out.
-/

import TreeLowering.Ir.Outline
import TreeLowering.Proofs.Listing.Line
import TreeLowering.Proofs.Tables.Module

namespace TreeLowering.Text

/-! ### Cutting texts that were put together -/

theorem contains_append (part : String) (before after : List Char) :
    contains part (before ++ (part.toList ++ after)) = true := by
  induction before with
  | nil =>
    have starts : startsWith part (part.toList ++ after) = true := by simp [startsWith]
    cases text : part.toList ++ after with
    | nil => rwa [text] at starts
    | cons c rest =>
      rw [text] at starts
      simp [contains, starts]
  | cons c before ih => simp [contains, ih]

end TreeLowering.Text

namespace TreeLowering.Ir

open Text

/-! ### Outlines of modules -/

def Block.outline (block : Block) : BlockOutline :=
  ⟨block.label, block.insts.size, block.isTerminated⟩

def Function.outline (function : Function) : FunctionOutline :=
  ⟨function.name, function.blocks.toList.map Block.outline⟩

/-- What there is to say about a module without looking into its instructions. -/
def Module.outline (target : Module) : Outline :=
  let functions := target.functions.toList
  { types := target.types.size
    globals := target.globals.size
    declarations := (functions.filter Function.isDeclaration).length
    functions := (functions.filter fun function => !function.isDeclaration).map Function.outline }

namespace Outline

/-! ### Lines -/

/-- Only a carriage return at the very end of a line is dropped, so a line keeps its start. -/
theorem finishLine_append (before : List Char) (mark : Char) (other : mark ≠ '\r')
    (rest : List Char) :
    ∃ kept, finishLine (before ++ mark :: rest).reverse = before ++ mark :: kept := by
  rcases List.eq_nil_or_concat rest with rfl | ⟨rest, last, rfl⟩
  · refine ⟨[], ?_⟩
    rw [List.reverse_append, List.reverse_singleton, List.singleton_append]
    unfold finishLine
    split
    · next same => exact absurd (List.cons.inj same).1 other
    · simp
  · rw [List.concat_eq_append, ← List.cons_append, ← List.append_assoc, List.reverse_append,
      List.reverse_singleton, List.singleton_append]
    unfold finishLine
    split
    · next same =>
      obtain ⟨-, rfl⟩ := List.cons.inj same
      exact ⟨rest, List.reverse_reverse _⟩
    · exact ⟨rest ++ [last], by simp⟩

namespace Reader

/-- One line as the reader finds it in a text. -/
def readLine (reader : Reader) (line : String) : Reader :=
  reader.read (finishLine line.toList.reverse)

def readLines (reader : Reader) (lines : List String) : Reader := lines.foldl readLine reader

@[simp] theorem readLines_nil (reader : Reader) : reader.readLines [] = reader := rfl

@[simp] theorem readLines_cons (reader : Reader) (line : String) (lines : List String) :
    reader.readLines (line :: lines) = (reader.readLine line).readLines lines := rfl

theorem readLines_append (reader : Reader) (first second : List String) :
    reader.readLines (first ++ second) = (reader.readLines first).readLines second :=
  List.foldl_append

/-- When each line of one kind adds one to a count, all of them add their number. -/
theorem readLines_counted {Entry : Type} {line : Entry → String} (counted : Nat → Reader)
    (step : ∀ count entry, (counted count).readLine (line entry) = counted (count + 1))
    (entries : List Entry) (count : Nat) :
    (counted count).readLines (entries.map line) = counted (count + entries.length) := by
  induction entries generalizing count with
  | nil => rfl
  | cons entry entries ih =>
    rw [List.map_cons, readLines_cons, step, ih, List.length_cons, Nat.add_assoc,
      Nat.add_comm 1]

theorem readText_line {line : List Char} (plain : '\n' ∉ line) (reader : Reader)
    (pending rest : List Char) :
    reader.readText pending (line ++ '\n' :: rest) =
      (reader.read (finishLine (line.reverse ++ pending))).readText [] rest := by
  induction line generalizing pending with
  | nil => cases pending <;> rfl
  | cons c line ih =>
    rw [List.mem_cons, not_or] at plain
    have step : reader.readText pending (c :: (line ++ '\n' :: rest)) =
        reader.readText (c :: pending) (line ++ '\n' :: rest) := by
      cases pending <;> simp [readText, Ne.symm plain.1]
    simp [step, ih plain.2]

/-- A text is read line by line. -/
theorem readText_joinLines {lines : List String} (plain : ∀ line ∈ lines, OneLine line)
    (reader : Reader) : reader.readText [] (joinLines lines).toList = reader.readLines lines := by
  induction lines generalizing reader with
  | nil => rfl
  | cons line lines ih =>
    rw [List.forall_mem_cons] at plain
    have text : (joinLines (line :: lines)).toList =
        line.toList ++ '\n' :: (joinLines lines).toList := by
      simp [joinLines]
    rw [text, readText_line plain.1, List.append_nil, ih plain.2, readLines_cons, readLine]

/-! ### Lines outside functions -/

section Outside

variable (done : Outline)

theorem readLine_blank : readLine ⟨done, none⟩ "" = ⟨done, none⟩ := rfl

theorem readLine_typeDef (entry : TypeDef) :
    readLine ⟨done, none⟩ entry.line = ⟨{ done with types := done.types + 1 }, none⟩ := by
  obtain ⟨rest, text⟩ : ∃ rest, entry.line.toList =
      ('%' :: entry.name.toList ++ " = type".toList) ++ ' ' :: rest := by
    unfold TypeDef.line
    split <;> simp
  obtain ⟨kept, finished⟩ := finishLine_append
    ('%' :: entry.name.toList ++ " = type".toList) ' ' (by decide) rest
  have marked := contains_append " = type " ('%' :: entry.name.toList) kept
  rw [readLine, text, finished]
  simp_all [Reader.read, readOutside, dropStart?, startsWith]

theorem readLine_global (entry : Global) :
    readLine ⟨done, none⟩ entry.line = ⟨{ done with globals := done.globals + 1 }, none⟩ := by
  obtain ⟨rest, text⟩ : ∃ rest, entry.line.toList =
      ('@' :: entry.name.toList ++ " = constant".toList) ++ ' ' :: rest := by
    simp [Global.line]
  obtain ⟨kept, finished⟩ := finishLine_append
    ('@' :: entry.name.toList ++ " = constant".toList) ' ' (by decide) rest
  have marked := contains_append " = constant " ('@' :: entry.name.toList) kept
  rw [readLine, text, finished]
  simp_all [Reader.read, readOutside, dropStart?, startsWith]

theorem readLine_declaration (function : Function) :
    readLine ⟨done, none⟩ function.declarationLine =
      ⟨{ done with declarations := done.declarations + 1 }, none⟩ := by
  obtain ⟨rest, text⟩ : ∃ rest,
      function.declarationLine.toList = "declare".toList ++ ' ' :: rest := by
    simp [Function.declarationLine]
  obtain ⟨kept, finished⟩ := finishLine_append "declare".toList ' ' (by decide) rest
  rw [readLine, text, finished]
  rfl

/-- The name of a function is found again when the mark before it and the one behind it come
first. -/
theorem functionName_append {before name : List Char} (typed : '@' ∉ before) (named : '(' ∉ name)
    (rest : List Char) :
    functionName (before ++ '@' :: (name ++ '(' :: rest)) = String.ofList name := by
  rw [functionName, splitAt?_append typed]
  dsimp only
  rw [splitAt?_append named]

theorem readLine_head {function : Function} (typed : '@' ∉ function.ret.text.toList)
    (named : '(' ∉ function.name.toList) :
    readLine ⟨done, none⟩ function.headLine = ⟨done, some ⟨function.name, []⟩⟩ := by
  obtain ⟨rest, text⟩ : ∃ rest, function.headLine.toList =
      ("define ".toList ++ (function.ret.text.toList ++ " ".toList ++
        '@' :: function.name.toList)) ++ '(' :: rest := by
    simp [Function.headLine]
  obtain ⟨kept, finished⟩ := finishLine_append ("define ".toList ++
    (function.ret.text.toList ++ " ".toList ++ '@' :: function.name.toList)) '(' (by decide) rest
  have blank : '@' ∉ function.ret.text.toList ++ " ".toList := by simp [typed]
  rw [readLine, text, finished, List.append_assoc, Reader.read, readOutside, dropStart?_append]
  dsimp only
  rw [List.append_assoc, List.cons_append, functionName_append blank named, String.ofList_toList]

end Outside

/-! ### Lines inside functions -/

section Inside

variable (done : Outline) (name : String)

/-- The colon behind a label makes no indent. -/
theorem dropStart?_label {label : List Char} (flush : startsWith "  " label = false) :
    dropStart? [' ', ' '] (label ++ [':']) = none := by
  match label with
  | [] => rfl
  | [first] => by_cases blank : ' ' = first <;> simp [dropStart?, blank]
  | first :: second :: rest => simpa [dropStart?, startsWith] using flush

theorem readLine_label (blocks : List BlockOutline) {label : String}
    (flush : startsWith "  " label.toList = false) :
    readLine ⟨done, some ⟨name, blocks⟩⟩ (label ++ ":") =
      ⟨done, some ⟨name, ⟨label, 0, false⟩ :: blocks⟩⟩ := by
  have finished : finishLine (label ++ ":").toList.reverse = label.toList ++ [':'] := by
    simp [finishLine]
  have inside : label.toList ++ [':'] ≠ ['\x7d'] := by
    intro same
    exact absurd (List.getLast?_append.symm.trans (congrArg List.getLast? same)) (by simp)
  rw [readLine, finished]
  simp [Reader.read, inside, readInside, dropStart?_label flush, labelOf?]

theorem readLine_instruction (block : BlockOutline) (earlier : List BlockOutline)
    (function : Function) (inst : Instruction) :
    readLine ⟨done, some ⟨name, block :: earlier⟩⟩ ("  " ++ function.instructionText inst) =
      ⟨done, some ⟨name, { block with instructions := block.instructions + 1 } :: earlier⟩⟩ := by
  obtain ⟨register, result⟩ : ∃ register, inst.name.text.toList = '%' :: register := by
    cases inst.name <;> simp [ValueName.text]
  obtain ⟨rest, text⟩ : ∃ rest, ("  " ++ function.instructionText inst).toList =
      (' ' :: ' ' :: '%' :: register ++ " =".toList) ++ ' ' :: rest := by
    simp [Function.instructionText, result]
  obtain ⟨kept, finished⟩ := finishLine_append
    (' ' :: ' ' :: '%' :: register ++ " =".toList) ' ' (by decide) rest
  have marked := contains_append " = " ('%' :: register) kept
  rw [readLine, text, finished]
  simp_all [Reader.read, readInside, BlockOutline.read, isTerminatorLine, isInstructionLine,
    dropStart?, startsWith]

theorem readLine_terminator (block : BlockOutline) (earlier : List BlockOutline)
    (function : Function) (terminator : Terminator) :
    readLine ⟨done, some ⟨name, block :: earlier⟩⟩ ("  " ++ function.terminatorText terminator) =
      ⟨done, some ⟨name, { block with terminated := true } :: earlier⟩⟩ := by
  obtain ⟨rest, text⟩ : ∃ rest, ("  " ++ function.terminatorText terminator).toList =
      (' ' :: ' ' :: terminator.opcode.toList) ++ ' ' :: rest := by
    rcases terminator with (_ | value) | _ | _ <;>
      simp [Function.terminatorText, Terminator.opcode]
  obtain ⟨kept, finished⟩ :=
    finishLine_append (' ' :: ' ' :: terminator.opcode.toList) ' ' (by decide) rest
  rw [readLine, text, finished]
  cases terminator <;>
    simp [Terminator.opcode, Reader.read, readInside, BlockOutline.read, isTerminatorLine, dropStart?,
      startsWith]

theorem readLines_instructions (function : Function) (insts : List Instruction)
    (block : BlockOutline) (earlier : List BlockOutline) :
    readLines ⟨done, some ⟨name, block :: earlier⟩⟩
        (insts.map fun inst => "  " ++ function.instructionText inst) =
      ⟨done, some ⟨name, { block with instructions := block.instructions + insts.length } ::
        earlier⟩⟩ :=
  readLines_counted
    (fun count => ⟨done, some ⟨name, { block with instructions := count } :: earlier⟩⟩)
    (fun _ _ => readLine_instruction ..) insts block.instructions

theorem readLines_block (function : Function) {block : Block} (blocks : List BlockOutline)
    (flush : startsWith "  " block.label.toList = false) :
    readLines ⟨done, some ⟨name, blocks⟩⟩ (function.blockLines block) =
      ⟨done, some ⟨name, block.outline :: blocks⟩⟩ := by
  rw [Function.blockLines, List.cons_append, readLines_cons, readLine_label _ _ _ flush,
    readLines_append, readLines_instructions]
  cases closed : block.terminator with
  | none => simp [Block.outline, Block.isTerminated, closed]
  | some terminator =>
    rw [Option.toList_some, List.map_singleton, readLines_cons, readLine_terminator]
    simp [Block.outline, Block.isTerminated, closed]

theorem readLines_blocks (function : Function) {blocks : List Block}
    (flush : ∀ block ∈ blocks, startsWith "  " block.label.toList = false)
    (earlier : List BlockOutline) :
    readLines ⟨done, some ⟨name, earlier⟩⟩ (blocks.flatMap function.blockLines) =
      ⟨done, some ⟨name, (blocks.map Block.outline).reverse ++ earlier⟩⟩ := by
  induction blocks generalizing earlier with
  | nil => rfl
  | cons block blocks ih =>
    rw [List.forall_mem_cons] at flush
    rw [List.flatMap_cons, readLines_append, readLines_block _ _ _ _ flush.1, ih flush.2]
    simp

end Inside

/-! ### Sections -/

section Sections

variable (done : Outline)

theorem readLines_typeDefs (entries : List TypeDef) :
    readLines ⟨done, none⟩ (entries.map TypeDef.line) =
      ⟨{ done with types := done.types + entries.length }, none⟩ :=
  readLines_counted (fun count => ⟨{ done with types := count }, none⟩)
    (fun _ _ => readLine_typeDef ..) entries done.types

theorem readLines_globals (entries : List Global) :
    readLines ⟨done, none⟩ (entries.map Global.line) =
      ⟨{ done with globals := done.globals + entries.length }, none⟩ :=
  readLines_counted (fun count => ⟨{ done with globals := count }, none⟩)
    (fun _ _ => readLine_global ..) entries done.globals

theorem readLines_declarations (functions : List Function) :
    readLines ⟨done, none⟩ (functions.map Function.declarationLine) =
      ⟨{ done with declarations := done.declarations + functions.length }, none⟩ :=
  readLines_counted (fun count => ⟨{ done with declarations := count }, none⟩)
    (fun _ _ => readLine_declaration ..) functions done.declarations

/-- What a function needs so that its lines are read as they are meant. -/
structure Legible (function : Function) : Prop where
  ret : '@' ∉ function.ret.text.toList
  name : '(' ∉ function.name.toList
  labels : ∀ block ∈ function.blocks.toList, startsWith "  " block.label.toList = false

theorem readLines_definition {function : Function} (legible : Legible function) :
    readLines ⟨done, none⟩ function.definitionLines =
      ⟨{ done with functions := function.outline :: done.functions }, none⟩ := by
  rw [Function.definitionLines, List.cons_append, readLines_cons,
    readLine_head _ legible.ret legible.name, readLines_append,
    readLines_blocks _ _ _ legible.labels, List.append_nil, readLines_cons, readLines_nil]
  change Reader.mk { done with functions := ⟨_, List.reverse _⟩ :: _ } none = _
  rw [List.reverse_reverse, Function.outline]

theorem readLines_definitions {functions : List Function}
    (legible : ∀ function ∈ functions, Legible function) :
    readLines ⟨done, none⟩ (functions.flatMap Function.definitionLines) =
      ⟨{ done with functions := (functions.map Function.outline).reverse ++ done.functions },
        none⟩ := by
  induction functions generalizing done with
  | nil => rfl
  | cons function functions ih =>
    rw [List.forall_mem_cons] at legible
    rw [List.flatMap_cons, readLines_append, readLines_definition _ legible.1, ih _ legible.2]
    simp

end Sections

/-! ### Blank lines between sections -/

/-- Blank lines between sections change nothing as long as every section ends outside functions. -/
theorem readLines_intercalate {sections : List (List String)}
    (outside : ∀ lines ∈ sections, ∀ done, ∃ after, readLines ⟨done, none⟩ lines = ⟨after, none⟩)
    (done : Outline) :
    readLines ⟨done, none⟩ ([""].intercalate sections) =
      readLines ⟨done, none⟩ sections.flatten := by
  induction sections generalizing done with
  | nil => rfl
  | cons lines sections ih =>
    rw [List.forall_mem_cons] at outside
    obtain ⟨after, read⟩ := outside.1 done
    cases sections with
    | nil => simp
    | cons next sections =>
      rw [List.intercalate_cons_cons, List.flatten_cons, readLines_append, readLines_append,
        readLines_append, read, readLines_cons, readLine_blank, readLines_nil, ih outside.2]

end Reader

end Outline

theorem joinLines_append (first second : List String) :
    joinLines (first ++ second) = joinLines first ++ joinLines second := by
  rw [joinLines, List.map_append, String.join_append]
  rfl

/-- Texts with a line feed between each two are lines with a blank one between. -/
theorem intercalate_joinLines (sections : List (List String)) :
    "\n".intercalate (sections.map joinLines) = joinLines ([""].intercalate sections) := by
  induction sections with
  | nil => rfl
  | cons lines sections ih =>
    cases sections with
    | nil => simp
    | cons next sections =>
      rw [List.map_cons, List.map_cons, String.intercalate_cons_cons, List.intercalate_cons_cons,
        joinLines_append, joinLines_append, ← ih, List.map_cons]
      rfl

theorem forall_mem_intercalate {sections : List (List String)}
    (plain : ∀ lines ∈ sections, ∀ line ∈ lines, OneLine line) :
    ∀ line ∈ [""].intercalate sections, OneLine line := by
  induction sections with
  | nil => simp
  | cons lines sections ih =>
    rw [List.forall_mem_cons] at plain
    cases sections with
    | nil => simpa using plain.1
    | cons next sections =>
      rw [List.intercalate_cons_cons, List.forall_mem_append, List.forall_mem_append,
        List.forall_mem_singleton]
      exact ⟨⟨plain.1, by decide⟩, ih plain.2⟩

/-! ### The round trip -/

namespace Module

open Outline Reader

/-- Names and labels that a listing can be read back with. -/
structure Legible (target : Module) : Prop where
  /-- No name and no label breaks its line. -/
  oneLine : ∀ name ∈ target.typeNames ++ target.names, OneLine name
  /-- No label looks like an indented line. -/
  labels : ∀ function ∈ target.functions, ∀ block ∈ function.blocks,
    startsWith "  " block.label.toList = false
  functionNames : ∀ function ∈ target.functions, Lacks '(' function.name
  typeNames : ∀ name ∈ target.typeNames, Lacks '@' name

variable {target : Module}

theorem Legible.function (legible : target.Legible) {function : Function}
    (member : function ∈ target.functions) : Reader.Legible function where
  ret := by
    refine function.ret.lacks_text (by decide) fun name found => legible.typeNames name ?_
    refine List.mem_append_right _ (Ty.mem_namesAll.2 ⟨function.ret, ?_, found⟩)
    exact List.mem_flatMap.2 ⟨function, Array.mem_toList_iff.2 member,
      List.mem_append_left _ List.mem_cons_self⟩
  name := legible.functionNames function member
  labels block found := legible.labels function member block (Array.mem_toList_iff.1 found)

theorem Legible.outside (legible : target.Legible) :
    ∀ lines ∈ target.sections, ∀ done, ∃ after,
      readLines ⟨done, none⟩ lines = ⟨after, none⟩ := by
  simp only [sections, List.forall_mem_cons, List.forall_mem_map, List.mem_filter]
  exact ⟨fun done => ⟨_, readLines_typeDefs ..⟩, fun done => ⟨_, readLines_globals ..⟩,
    fun done => ⟨_, readLines_declarations ..⟩, fun function member done =>
      ⟨_, readLines_definition done (legible.function (Array.mem_toList_iff.1 member.1))⟩⟩

/-- What the lines of all sections add to an outline. -/
theorem Legible.readLines_sections (legible : target.Legible) :
    readLines ⟨.empty, none⟩ target.sections.flatten =
      ⟨{ target.outline with functions := target.outline.functions.reverse }, none⟩ := by
  have definitions : ∀ function ∈ target.functions.toList.filter fun function =>
      !function.isDeclaration, Reader.Legible function := fun function member =>
    legible.function (Array.mem_toList_iff.1 (List.mem_filter.1 member).1)
  rw [sections, List.flatten_cons, List.flatten_cons, List.flatten_cons, ← List.flatMap_def,
    readLines_append, readLines_typeDefs, readLines_append, readLines_globals, readLines_append,
    readLines_declarations, readLines_definitions _ definitions]
  simp [outline, Outline.empty]

/-- The outline of a listing is the outline of its module. -/
theorem parse_listing (target : Module) (legible : target.Legible) :
    Outline.parse target.listing = target.outline := by
  have lines := oneLine_sections legible.oneLine
  have kept {lines : List String} (member : lines ∈ target.sections.filter fun lines =>
      !lines.isEmpty) : lines ∈ target.sections := (List.mem_filter.1 member).1
  have read : readText ⟨.empty, none⟩ [] target.listing.toList =
      ⟨{ target.outline with functions := target.outline.functions.reverse }, none⟩ := by
    rw [listing, intercalate_joinLines,
      readText_joinLines (forall_mem_intercalate fun _ member => lines _ (kept member)),
      readLines_intercalate fun _ member => legible.outside _ (kept member),
      List.flatten_filter_not_isEmpty, legible.readLines_sections]
  rw [Outline.parse, read]
  simp

/-- A module whose names and constants look like other lines of a listing. -/
def riddle : Module :=
  let types := ((Module.empty "riddle").addType ⟨"Pair", some [.i32, .struct "Rest"]⟩ rfl).addType
    ⟨"Rest", none⟩ rfl
  let globals := (types.addGlobal ⟨"text", .array .u8 3, .bytes [10, 125, 10]⟩ rfl).addGlobal
    ⟨"declare ", .char, .char '\n'⟩ rfl
  let defined := globals.addFunction
    ⟨"f@g", [⟨"x", .i32⟩], .struct "Pair", #[
      ⟨⟨0⟩, "entry", #[⟨.temp 0, .bool, .cmp .eq (.param "x" .i32) (.int 0 .i32)⟩],
        some (.branch (.reg (.temp 0) .bool) ⟨1⟩ ⟨2⟩)⟩,
      ⟨⟨1⟩, "\x7d", #[], some (.ret none)⟩,
      ⟨⟨2⟩, " ret :", #[⟨.named "a = type ", .unit, .const (.global "jmp \r" .unit)⟩], none⟩]⟩ rfl
  defined.addFunction ⟨"define ", [], .unit, #[]⟩ rfl

theorem riddle_legible : riddle.Legible :=
  ⟨by decide, by decide, by decide, by decide⟩

theorem parse_listing_riddle : riddle.Legible ∧ Outline.parse riddle.listing =
    ⟨2, 2, 1, [⟨"f@g", [⟨"entry", 1, true⟩, ⟨"\x7d", 0, true⟩, ⟨" ret :", 1, false⟩]⟩]⟩ :=
  ⟨riddle_legible, (parse_listing riddle riddle_legible).trans (by decide)⟩

end Module

end TreeLowering.Ir
