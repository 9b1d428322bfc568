import ModelLoading.Proofs.Conversion.Casts

/-!
# Configured names

The names of a target are written into the text by the first rules, and all later rules rewrite what they
wrote. Of a dotted name between the fixed texts around it, none of them can change anything but the first,
which moves the old root of namespaces. So a name reaches the output if none of its segments is that root, and
only then (`names_kept_iff`).
-/

namespace ModelLoading.Conversion

open Edit Text

variable {s t name : List Char} {target : Target} {count : Nat}

/-! ## 1. Names between fixed texts -/

/-- The old root of namespaces. -/
def oldRoot : List Char := "Assets".toList

/-- The segments of a dotted name. -/
def segments (name : List Char) : List (List Char) := pieces ['.'] name

/-- The segments of a name are words. -/
theorem isWord_of_mem_segments (named : Named name) {part : List Char} (member : part ∈ segments name) :
    ∀ c ∈ part, isWord c = true := by
  intro c inside
  have plain : '.' ∉ part := fun dot =>
    have ⟨l, r, split⟩ := List.append_of_mem dot
    not_infix_of_mem_pieces (by simp) member ⟨l, r, by simp [split]⟩
  exact ((mem_wordOrDot c).mp (named c ((infix_of_mem_pieces member).mem inside))).resolve_right
    fun same => plain (same ▸ inside)

/-- The old root is a whole word of a name where it is one of the segments. -/
theorem occurs_root_iff (named : Named name) :
    Occurs wholeWord oldRoot name ↔ oldRoot ∈ segments name := by
  have split := intercalate_pieces (List.cons_ne_nil '.' []) name
  have each : ∀ part ∈ segments name, Occurs wholeWord oldRoot part ↔ oldRoot = part :=
    fun part member => occurs_wholeWord_iff (isWord_of_mem_segments named member)
  rw [← split, occurs_intercalate (by decide) (by decide) (by decide), split]
  constructor
  · rintro ⟨part, member, occurs⟩
    exact (each part member).mp occurs ▸ member
  · exact fun member => ⟨_, member, (each _ member).mpr rfl⟩

/-- Fixed texts around a name. -/
structure Frame where
  front : List Char
  first : Char
  last : Char
  back : List Char

namespace Frame

/-- A name with the fixed texts around it. -/
def around (f : Frame) (name : List Char) : List Char := f.front ++ f.first :: (name ++ f.last :: f.back)

/-- The form of a name with the fixed texts around it. -/
def form (f : Frame) : List Item :=
  exactly (f.front ++ [f.first]) ++ .run wordOrDot.mem :: exactly (f.last :: f.back)

variable {f : Frame}

theorem spells (f : Frame) (named : Named name) : Spells f.form (f.around name) := by
  have form := ((spells_exactly (f.last :: f.back)).run named).exactly_append (f.front ++ [f.first])
  rw [List.append_assoc] at form
  exact form

/-- No word goes on between a name and the fixed texts, which do not have the old root. -/
structure Neutral (f : Frame) : Prop where
  first : isWord f.first = false ∧ f.first ∉ oldRoot
  last : isWord f.last = false ∧ f.last ∉ oldRoot
  front : ¬oldRoot <:+: f.front
  back : ¬oldRoot <:+: f.back
  ends : ∃ z, (f.last :: f.back).getLast? = some z ∧ z ∉ oldRoot

theorem getLast?_around (f : Frame) (name : List Char) :
    (f.around name).getLast? = (f.last :: f.back).getLast? := by
  simp [around, List.getLast?_append, List.getLast?_cons]

/-- A name with the old root does not reach the output as it is. -/
theorem not_infix (h : Ran later s t) (neutral : f.Neutral) (root : Occurs wholeWord oldRoot name) :
    ¬f.around name <:+: t := by
  rintro ⟨l, r, rfl⟩
  refine assets_root_gone h ?_
  have there := root.between (x := l ++ (f.front ++ [f.first])) (y := f.last :: (f.back ++ r))
    (by simpa [inWord] using neutral.first.1) (by simpa [inWord] using neutral.last.1)
  have split : l ++ f.around name ++ r = l ++ (f.front ++ [f.first]) ++ (name ++ f.last :: (f.back ++ r)) := by
    simp [around]
  exact split ▸ there

/-- A name without the old root reaches the output, if no rule after the first touches it. -/
theorem kept (h : Ran later s t) (neutral : f.Neutral) (root : ¬Occurs wholeWord oldRoot name)
    (each : ∀ e ∈ later.drop 1, e.Keeps (Occurs free (f.around name))) (there : f.around name <:+: s) :
    f.around name <:+: t := by
  obtain ⟨z, ends, lacks⟩ := neutral.ends
  have absent : ¬Occurs wholeWord oldRoot (f.around name) := fun occurs => root
    (occurs.inside neutral.first.2 neutral.last.2 (fun front => neutral.front front.infix)
      fun back => neutral.back back.infix)
  obtain ⟨_, u, _, ⟨⟩, moved, rest⟩ := h.at (k := 0) rfl
  have moves : (wordEffect wholeWord "Assets" "Il2CppAssets").Keeps (f.around name <:+: ·) :=
    word_keeps_infix "Il2Cpp" (by decide) (by decide) ((f.getLast?_around name).trans ends)
      lacks absent
  exact occurs_free.mp (rest.keeps each (occurs_free.mpr (moves _ _ _ moved there)))

end Frame

/-- The namespace line. -/
def namespaceFrame : Frame := { front := "namespace".toList, first := ' ', last := ';', back := [] }

/-- The property that names the bytes resource. -/
def resourceFrame : Frame :=
  { front := "protected override string BytesFileName => ".toList, first := '"', last := '"', back := [';'] }

/-- The class with its base class, behind the end of a keyword. -/
def classFrame : Frame := { front := ['s'], first := ' ', last := ' ', back := ": ModByteLoader<".toList }

/-- The class with its base class. -/
def bareClassFrame : Frame := { classFrame with front := [] }

/-- The fixed texts around the names of a target. -/
def frames : List Frame := [namespaceFrame, resourceFrame, classFrame]

theorem frames_neutral : ∀ f ∈ bareClassFrame :: frames, f.Neutral := by
  have checked : ∀ f ∈ bareClassFrame :: frames, (isWord f.first = false ∧ f.first ∉ oldRoot) ∧
      (isWord f.last = false ∧ f.last ∉ oldRoot) ∧ ¬oldRoot <:+: f.front ∧ ¬oldRoot <:+: f.back ∧
      (f.last :: f.back).getLast?.any (· ∉ oldRoot) = true := by decide
  intro f frame
  obtain ⟨first, last, front, back, ends⟩ := checked f frame
  obtain ⟨z, last_, lacks⟩ := (Option.any_eq_true ..).mp ends
  exact ⟨first, last, front, back, z, last_, of_decide_eq_true lacks⟩

/-- The fixed texts around a name, spelled out. -/
theorem Frame.toList_around {f : Frame} {front back : String} (opens : front.toList = f.front ++ [f.first])
    (closes : back.toList = f.last :: f.back) (name : String) :
    (front ++ name ++ back).toList = f.around name.toList := by
  rw [String.toList_append, String.toList_append, opens, closes, List.append_assoc, List.append_assoc]
  rfl

theorem toList_namespace (name : String) :
    s!"namespace {name};".toList = namespaceFrame.around name.toList :=
  Frame.toList_around (f := namespaceFrame) (by decide) (by decide) name

theorem toList_class (name : String) :
    s!" {name} : ModByteLoader<".toList = bareClassFrame.around name.toList :=
  Frame.toList_around (f := bareClassFrame) (by decide) (by decide) name

theorem toList_resource (name : String) :
    s!"protected override string BytesFileName => \"{name}\";".toList = resourceFrame.around name.toList :=
  Frame.toList_around (f := resourceFrame) (by decide) (by decide) name

/-! ## 2. The rules after the class signature -/

/-- No rule after the first touches a name in its fixed texts. -/
theorem later_keep_frames (named : Named name) : ∀ f ∈ frames,
    ∀ e ∈ later.drop 1, e.Keeps (Occurs free (f.around name)) := by
  have most : ∀ f ∈ frames,
      (((laterTexts.val.map (·.2)).drop 1).take 2 ++ (laterTexts.val.map (·.2)).drop 4).all
        (·.reversed.safe free f.form) = true := by decide
  have reader : ∀ f ∈ frames,
      Text.safe free f.form "T>() where T : Il2CppObjectBase \x7b".toList "T>() \x7b".toList = true := by
    decide
  have split : later.drop 1 = (later.drop 1).take 2 ++ readerEffect {} :: later.drop 4 := rfl
  intro f frame e member
  have rest : e ∈ (later.drop 1).take 2 ++ later.drop 4 → e.Keeps (Occurs free (f.around name)) := by
    intro member
    have checked := most f frame
    rw [← later_wordings, ← List.map_drop, ← List.map_take, ← List.map_drop, ← List.map_append] at checked
    exact Wording.keeps_occurs (List.all_eq_true.mp checked _ (List.mem_map_of_mem member)) (f.spells named)
  rw [split, List.mem_append, List.mem_cons] at member
  rcases member with first | rfl | last
  · exact rest (List.mem_append_left _ first)
  · -- the bracket of a type argument can belong to the class, but it stays
    have safe := (Safe.of_safe (reader f frame) (f.spells named)).around ['<'] []
    have back : (readerEffect {}).back = ['<'] ++ ("T>() \x7b".toList ++ []) := by decide
    have newBack : (readerEffect {}).newBack =
        ['<'] ++ ("T>() where T : Il2CppObjectBase \x7b".toList ++ []) := by decide
    exact Effect.keeps_occurs_of_safe (Safe.refl _ _ _) (back ▸ newBack ▸ safe)
  · exact rest (List.mem_append_right _ last)

/-- A name in its fixed texts reaches the output if it has not the old root, and only then. -/
theorem Frame.infix_iff {f : Frame} (h : Ran later s t) (frame : f ∈ frames) (named : Named name)
    (there : f.around name <:+: s) : f.around name <:+: t ↔ oldRoot ∉ segments name := by
  have neutral := frames_neutral f (.tail _ frame)
  rw [← occurs_root_iff named]
  exact ⟨fun reached root => not_infix h neutral root reached,
    fun root => kept h neutral root (later_keep_frames named f frame) there⟩

/-! ## 3. The rules of the class signature -/

/-- A dotted name. -/
def IsDotted (name : String) : Prop := name ≠ "" ∧ Named name.toList

/-- The signature of the generated class, behind the name of its model. -/
def generatedSignature : List Char := "Loader : IGameModelLoader".toList

/-- The field of the object table. -/
def tableField : List Char := "object[] m;".toList

theorem toList_signature (t : Target) :
    s!"{t.shortName}Loader : {({} : Vocabulary).generatorInterface}".toList =
      t.shortName.toList ++ generatedSignature := by
  have spelled : generatedSignature = "Loader : ".toList ++ "IGameModelLoader".toList := by decide
  simp [toString, spelled]

theorem toList_generated (t : Target) : s!"class {t.shortName}Loader : IGameModelLoader".toList =
    "class ".toList ++ (t.shortName.toList ++ generatedSignature) := by
  have split : ∀ front middle back : String,
      (front ++ middle ++ back).toList = front.toList ++ (middle.toList ++ back.toList) := by simp
  exact split "class " t.shortName "Loader : IGameModelLoader"

/-- A name of a model type without blanks and semicolons. -/
def Target.Plain (t : Target) : Prop := ' ' ∉ t.shortName.toList ∧ ';' ∉ t.shortName.toList

/-- What a rule does that gives a class its signature. -/
def signatureEffect (t : Target) : Effect :=
  literalEffect s!"{t.shortName}Loader : {({} : Vocabulary).generatorInterface}"
    s!"{t.className} : {({} : Vocabulary).baseLoader}<{t.payloadType}>"

def membersEffect : Effect := literalEffect "\tpublic" "\tprotected override"

def tableEffect (t : Target) : Effect :=
  literalEffect "object[] m;" s!"protected override string BytesFileName => \"{t.bytesFileName}\";"

/-- The rules of the class signature run behind the one that puts the header in front. -/
theorem exists_signed (t : Target) (source : List Char) : ∃ u v n₁ n₂ n₃,
    Sweep (signatureEffect t).swap (signatureEffect t).leaves none ((header t).toList ++ source) u n₁ ∧
      Sweep membersEffect.swap membersEffect.leaves none u v n₂ ∧
      Sweep (tableEffect t).swap (tableEffect t).leaves none v (signed t source) n₃ := by
  have ran : Ran ((classSignatureEffects t {}).map (·.2)) ((header t).toList ++ source) (signed t source) := by
    rw [signed_eq]
    exact classSignature_have.ran _
  have effects : (classSignatureEffects t {}).map (·.2) = [signatureEffect t, membersEffect, tableEffect t] := rfl
  rw [effects] at ran
  generalize signatureEffect t = first, membersEffect = second, tableEffect t = third at ran
  rcases ran with _ | ⟨one, _ | ⟨two, _ | ⟨three, _ | _⟩⟩⟩
  exact ⟨_, _, _, _, _, one, two, three⟩

section Signature

variable {w : List Char} {items : List Item} (plain : target.Plain)

include plain

/-- The signature of the generated class overlaps no text of a form that ends with a semicolon. -/
theorem signature_keeps (last : w.getLast? = some ';') (spells : Spells items w)
    (apart : Text.apart false items generatedSignature = true) :
    (signatureEffect target).Keeps (Occurs free w) := by
  have whole : Apart false w (target.shortName.toList ++ generatedSignature) :=
    (Apart.of_apart apart spells).append last plain.2
  rw [← toList_signature] at whole
  exact literal_keeps whole

/-- The signature of the generated class is found behind the keyword. -/
theorem signature_detached : Detached ['s', ' '] (target.shortName.toList ++ generatedSignature) := by
  have apart : Apart false ['s', ' '] (target.shortName.toList ++ generatedSignature) :=
    (Apart.of_exactly (by decide)).append (z := ' ') (by decide) plain.1
  have absent := apart.not_infix (by simp)
  have ends : generatedSignature.getLast? = some 'r' := by decide
  refine .of_not_suffix ⟨'r', by rw [List.getLast?_append, ends]; rfl, by decide⟩ fun m front some =>
    ⟨fun behind => absent (behind.isInfix.trans front.isInfix), fun behind => ?_⟩
  rcases List.suffix_cons_iff.mp behind with rfl | behind
  · exact absent front.isInfix
  · rcases List.suffix_cons_iff.mp behind with rfl | behind
    · -- the name of the model does not begin with a blank, and neither does what follows it
      have head : (target.shortName.toList ++ generatedSignature).head? = Option.some ' ' := by
        obtain ⟨r, split⟩ := front
        rw [← split]
        rfl
      have other : generatedSignature.head? = Option.some 'L' := by decide
      rw [List.head?_append, other] at head
      cases first : target.shortName.toList.head? with
      | none => simp [first] at head
      | some c =>
        obtain rfl : c = ' ' := by simpa [first] using head
        exact plain.1 (List.mem_of_head? first)
    · exact some (List.suffix_nil.mp behind)

variable {source : List Char}

/-- The namespace line is in front of the text behind the rules of the class signature. -/
theorem namespace_signed {ns : String} (within : target.namespaceName = Option.some ns) (dotted : IsDotted ns) :
    namespaceFrame.around ns.toList <:+: signed target source := by
  have spells := namespaceFrame.spells dotted.2
  have there : namespaceFrame.around ns.toList <:+: (header target).toList ++ source := by
    have header : header target = preamble ++ s!"\nnamespace {ns};\n" := by
      unfold header
      rw [within]
      simp [dotted.1]
    have line : s!"\nnamespace {ns};\n".toList = '\n' :: (namespaceFrame.around ns.toList ++ ['\n']) := by
      have opens : "\nnamespace ".toList = '\n' :: ("namespace".toList ++ [' ']) := by decide
      have closes : ";\n".toList = [';', '\n'] := by decide
      change ("\nnamespace " ++ ns ++ ";\n").toList =
        '\n' :: (("namespace".toList ++ ' ' :: (ns.toList ++ [';'])) ++ ['\n'])
      rw [String.toList_append, String.toList_append, opens, closes]
      generalize "namespace".toList = word
      simp
    rw [header, String.toList_append, line]
    exact ⟨preamble.toList ++ ['\n'], '\n' :: source, by simp only [List.append_assoc, List.cons_append, List.nil_append]⟩
  have last : (namespaceFrame.around ns.toList).getLast? = Option.some ';' := namespaceFrame.getLast?_around _
  obtain ⟨_, _, _, _, _, first, second, third⟩ := exists_signed target source
  have one := signature_keeps plain last spells (by decide) _ _ _ first (occurs_free.mpr there)
  have two := literal_keeps (Apart.of_apart (by decide) spells) _ _ _ second one
  exact occurs_free.mp (literal_keeps (Apart.of_apart (by decide) spells) _ _ _ third two)

/-- The property that names the resource takes the place of the object table. -/
theorem resource_signed (table : tableField <:+: source) :
    resourceFrame.around target.bytesFileName.toList <:+: signed target source := by
  have there : tableField <:+: (header target).toList ++ source :=
    table.trans (List.suffix_append ..).isInfix
  have spells := spells_exactly tableField
  obtain ⟨_, _, _, _, _, first, second, third⟩ := exists_signed target source
  have one := signature_keeps plain (by decide) spells (by decide) _ _ _ first
    (occurs_free.mpr there)
  have two := literal_keeps (Apart.of_apart (by decide) spells) _ _ _ second one
  have detached : Detached [] tableField := .of_alone (by decide) (by decide)
  have property := literal_infix_replaced detached third (occurs_free.mp two)
  rwa [List.nil_append, toList_resource] at property

/-- The class has its name and its base class behind its keyword. -/
theorem class_signed (dotted : IsDotted target.className)
    (signature : "class ".toList ++ (target.shortName.toList ++ generatedSignature) <:+: source) :
    classFrame.around target.className.toList <:+: signed target source := by
  have spells := classFrame.spells dotted.2
  have there : ['s', ' '] ++ (target.shortName.toList ++ generatedSignature) <:+:
      (header target).toList ++ source := by
    have keyword : "class ".toList = "clas".toList ++ ['s', ' '] := by decide
    rw [keyword, List.append_assoc] at signature
    exact ((List.suffix_append ..).isInfix.trans signature).trans (List.suffix_append ..).isInfix
  obtain ⟨_, _, _, _, _, first, second, third⟩ := exists_signed target source
  rw [← toList_signature] at there
  have detached := signature_detached plain
  rw [← toList_signature] at detached
  have replaced := literal_infix_replaced detached first there
  have begun : classFrame.around target.className.toList <:+:
      ['s', ' '] ++ s!"{target.className} : {({} : Vocabulary).baseLoader}<{target.payloadType}>".toList :=
    ⟨[], target.payloadType.toList ++ ['>'], by simp [Frame.around, classFrame, toString]⟩
  have one := occurs_free.mpr (begun.trans replaced)
  have two := literal_keeps (Apart.of_apart (by decide) spells) _ _ _ second one
  exact occurs_free.mp (literal_keeps (Apart.of_apart (by decide) spells) _ _ _ third two)

end Signature

/-! ## 4. Conversions -/

/-- The names of a target reach the output if none of their segments is the old root of namespaces, and only
then. -/
theorem names_kept_iff {t : Target} {ns : String} {source : List Char} (valid : t.validate = .ok ())
    (within : t.namespaceName = some ns) (dotted : ∀ name ∈ [ns, t.className, t.bytesFileName], IsDotted name)
    (plain : t.Plain) (signature : s!"class {t.shortName}Loader : IGameModelLoader".toList <:+: source)
    (table : "object[] m;".toList <:+: source) : ∃ out, convert t {} source = .ok out ∧
      (s!"namespace {ns};".toList <:+: out ↔ oldRoot ∉ segments ns.toList) ∧
      (s!" {t.className} : ModByteLoader<".toList <:+: out ↔ oldRoot ∉ segments t.className.toList) ∧
      (s!"protected override string BytesFileName => \"{t.bytesFileName}\";".toList <:+: out ↔
        oldRoot ∉ segments t.bytesFileName.toList) := by
  obtain ⟨out, done, ran⟩ := exists_converted valid source
  simp only [List.forall_mem_cons] at dotted
  obtain ⟨namespaceDotted, classDotted, bytesDotted, -⟩ := dotted
  have namespaceIn : namespaceFrame ∈ frames := by simp [frames]
  have resourceIn : resourceFrame ∈ frames := by simp [frames]
  have classIn : classFrame ∈ frames := by simp [frames]
  refine ⟨out, done, ?_, ?_, ?_⟩
  · rw [toList_namespace]
    exact Frame.infix_iff ran namespaceIn namespaceDotted.2 (namespace_signed plain within namespaceDotted)
  · -- the keyword is not part of the statement about the class, so each direction has a frame of its own
    rw [toList_class]
    have there := class_signed plain classDotted (toList_generated t ▸ signature)
    refine ⟨fun reached root => ?_, fun root => ?_⟩
    · exact Frame.not_infix ran (frames_neutral _ (.head _)) ((occurs_root_iff classDotted.2).mpr root) reached
    · exact (List.suffix_append ['s'] _).isInfix.trans ((Frame.infix_iff ran classIn classDotted.2 there).mpr root)
  · rw [toList_resource]
    exact Frame.infix_iff ran resourceIn bytesDotted.2 (resource_signed plain table)

/-- A loader whose names reach the output. -/
theorem names_kept_iff_of_loader :
    let t : Target := { payloadType := "Game.Model", className := "Mods.Loader"
                        bytesFileName := "m.bytes", namespaceName := some "Mods.MyAssets" }
    let source := "class ModelLoader : IGameModelLoader \x7b\n\tobject[] m;\n\x7d".toList
    t.validate = .ok () ∧ (∀ name ∈ ["Mods.MyAssets", t.className, t.bytesFileName], IsDotted name) ∧ t.Plain ∧
      ∃ out, convert t {} source = .ok out ∧ "namespace Mods.MyAssets;".toList <:+: out ∧
      " Mods.Loader : ModByteLoader<".toList <:+: out ∧
      "protected override string BytesFileName => \"m.bytes\";".toList <:+: out := by
  intro t source
  have plain : t.Plain := by
    unfold Target.Plain
    decide
  have dotted : ∀ name ∈ ["Mods.MyAssets", t.className, t.bytesFileName], IsDotted name := by
    unfold IsDotted
    decide
  have clear : ∀ name ∈ ["Mods.MyAssets", t.className, t.bytesFileName],
      oldRoot ∉ segments name.toList := by decide
  obtain ⟨out, done, first, second, third⟩ := @names_kept_iff t _ source (by decide) rfl
    dotted plain (by decide) (by decide)
  exact ⟨by decide, dotted, plain, out, done, first.mpr (clear _ (by simp)), second.mpr (clear _ (by simp)), third.mpr (clear _ (by simp))⟩

/-- A resource that is named after the old root is asked for under another name. -/
theorem resource_name_lost :
    let t : Target := { payloadType := "Game.Model", className := "Loader"
                        bytesFileName := "Assets.bytes", namespaceName := some "Mods" }
    let source := "class ModelLoader : IGameModelLoader \x7b\n\tobject[] m;\n\x7d".toList
    t.validate = .ok () ∧ (∀ name ∈ ["Mods", t.className, t.bytesFileName], IsDotted name) ∧
      s!"{t.shortName}Loader : IGameModelLoader".toList <:+: source ∧ "object[] m;".toList <:+: source ∧
      ∃ out, convert t {} source = .ok out ∧
        ¬"protected override string BytesFileName => \"Assets.bytes\";".toList <:+: out := by
  intro t source
  have dotted : ∀ name ∈ ["Mods", t.className, t.bytesFileName], IsDotted name := by
    unfold IsDotted
    decide
  have root : Occurs wholeWord oldRoot t.bytesFileName.toList :=
    ⟨[], "Assets.bytes".toList, by decide, ".bytes".toList, by decide, by decide, by decide⟩
  have valid : t.validate = .ok () := by decide
  obtain ⟨out, done, ran⟩ := exists_converted valid source
  refine ⟨valid, dotted, by decide, by decide, out, done, ?_⟩
  have lost := Frame.not_infix ran (frames_neutral resourceFrame (by simp [frames])) root
  rwa [← toList_resource] at lost

end ModelLoading.Conversion
