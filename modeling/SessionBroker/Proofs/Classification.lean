import Mathlib.Data.List.Forall2
import SessionBroker.Proofs.FoundFiles
import SessionBroker.Proofs.TextForm
import SessionBroker.Proofs.WireForm
import SessionBroker.Routing.Plan

/-!
Files are classified by their final names.

The language of a path is that of its final name (`Language.ofPath_of_fileName?`), in any case of
the letters (`Language.ofName_recased`). So requests that spell their files in other ways are
planned alike (`plan_respelled`), and a scan may spell what it finds as it likes
(`scanRoots_respelled`). Main statement: `classified_by_final_name`.
-/

namespace SessionBroker

/-! ### The case of letters -/

/-- Two bytes are the same, or an ASCII letter in its two cases. -/
inductive SameLetter : UInt8 → UInt8 → Prop
  | same (b : UInt8) : SameLetter b b
  | lowered {b : UInt8} : 0x41 ≤ b → b ≤ 0x5a → SameLetter b (b + 0x20)
  | raised {b : UInt8} : 0x41 ≤ b → b ≤ 0x5a → SameLetter (b + 0x20) b

/-- Two names are the same but for the case of ASCII letters. -/
def Recased (n m : List UInt8) : Prop := List.Forall₂ SameLetter n m

section Letters

variable {b c : UInt8} {n m : List UInt8}

theorem SameLetter.symm (same : SameLetter b c) : SameLetter c b := by
  cases same with
  | same => exact .same b
  | lowered low high => exact .raised low high
  | raised low high => exact .lowered low high

/-- The case of a letter is lost in lower case. -/
theorem SameLetter.lowerByte (same : SameLetter b c) :
    Language.lowerByte b = Language.lowerByte c := by
  have letter {b : UInt8} (low : 0x41 ≤ b) (high : b ≤ 0x5a) :
      Language.lowerByte (b + 0x20) = Language.lowerByte b := by
    have lower : Language.lowerByte b = b + 0x20 := if_pos ⟨low, high⟩
    rw [← lower, lowerByte_lowerByte]
  cases same with
  | same => rfl
  | lowered low high => exact (letter low high).symm
  | raised low high => exact letter low high

/-- Slashes and dots have no other case. -/
theorem SameLetter.eq_of_lt (same : SameLetter b c) (mark : c < 0x41) : b = c := by
  cases same with
  | same => rfl
  | lowered low high =>
      exfalso
      have low : 0x41 ≤ b.toNat := UInt8.le_iff_toNat_le.mp low
      have high : b.toNat ≤ 0x5a := UInt8.le_iff_toNat_le.mp high
      have mark : (b.toNat + 0x20) % 256 < 0x41 := UInt8.lt_iff_toNat_lt.mp mark
      omega
  | raised low high => exact absurd mark (UInt8.not_lt.mpr low)

namespace Recased

theorem symm (same : Recased n m) : Recased m n :=
  List.Forall₂.flip (same.imp fun _ _ letter => letter.symm)

theorem eq_of_marks (same : Recased n m) (marks : m.all (· < 0x41) = true) : n = m := by
  induction same with
  | nil => rfl
  | cons first _ ih =>
      rw [List.all_cons, Bool.and_eq_true, decide_eq_true_eq] at marks
      rw [first.eq_of_lt marks.1, ih marks.2]

theorem mem_of_mark (same : Recased n m) (mark : b < 0x41) (mem : b ∈ m) : b ∈ n := by
  induction same with
  | nil => cases mem
  | cons first _ ih =>
      rcases List.mem_cons.mp mem with rfl | mem
      · rw [first.eq_of_lt mark]
        exact .head _
      · exact .tail _ (ih mem)

theorem isName (same : Recased n m) (proper : Path.IsName n) : Path.IsName m := by
  obtain ⟨some_, one, two, single⟩ := proper
  refine ⟨?_, ?_, ?_, ?_⟩
  · rintro rfl
    exact some_ (same.eq_of_marks rfl)
  · rintro rfl
    exact one (same.eq_of_marks (by decide))
  · rintro rfl
    exact two (same.eq_of_marks (by decide))
  · intro mem
    exact single (same.mem_of_mark (by decide) mem)

theorem takeWhile (same : Recased n m) :
    Recased (n.takeWhile (· ≠ Path.dot)) (m.takeWhile (· ≠ Path.dot)) := by
  induction same with
  | nil => exact .nil
  | @cons b c _ _ first _ ih =>
      have stops : b = Path.dot ↔ c = Path.dot := by
        constructor
        · rintro rfl
          exact first.symm.eq_of_lt (by decide)
        · rintro rfl
          exact first.eq_of_lt (by decide)
      by_cases stop : c = Path.dot
      · rw [List.takeWhile_cons_of_neg (by simp [stops.mpr stop]),
          List.takeWhile_cons_of_neg (by simp [stop])]
        exact .nil
      · rw [List.takeWhile_cons_of_pos (by simp [stops, stop]),
          List.takeWhile_cons_of_pos (by simp [stop])]
        exact .cons first ih

end Recased

/-- Names that differ in the case of letters differ no more in their extensions. -/
theorem Path.nameExtension?_recased (same : Recased n m) :
    Option.Rel Recased (Path.nameExtension? n) (Path.nameExtension? m) := by
  have back : Recased n.reverse m.reverse := List.rel_reverse same
  have after := back.takeWhile
  have before := List.forall₂_drop ((n.reverse.takeWhile (· ≠ Path.dot)).length + 1) back
  have double : n = [Path.dot, Path.dot] ↔ m = [Path.dot, Path.dot] := by
    constructor
    · rintro rfl
      exact same.symm.eq_of_marks (by decide)
    · rintro rfl
      exact same.eq_of_marks (by decide)
  have nothing : n.reverse.drop ((n.reverse.takeWhile (· ≠ Path.dot)).length + 1) = [] ↔
      m.reverse.drop ((m.reverse.takeWhile (· ≠ Path.dot)).length + 1) = [] := by
    rw [← after.length_eq]
    constructor
    · intro none_
      rw [none_] at before
      exact List.forall₂_nil_left_iff.mp before
    · intro none_
      rw [none_] at before
      exact List.forall₂_nil_right_iff.mp before
  rw [Path.nameExtension?, Path.nameExtension?]
  simp only [double, nothing]
  split
  · exact .none
  · exact .some (List.rel_reverse after)

end Letters

/-! ### Languages of names -/

section Names

variable {p q : Path} {n m : List UInt8}

def Language.ofName (n : List UInt8) : Language :=
  (Path.nameExtension? n).elim other ofExtension

/-- The language of a file is that of its final name. -/
theorem Language.ofPath_of_fileName? (named : p.fileName? = some n) :
    Language.ofPath p = Language.ofName n := by
  rw [Language.ofPath, Path.extension?, named]
  rfl

/-- Files of one final name are in one language. -/
theorem Path.Namesake.language (same : p.Namesake q) :
    Language.ofPath p = Language.ofPath q := by
  have final : p.fileName? = q.fileName? := same
  rw [Language.ofPath, Language.ofPath, Path.extension?, Path.extension?, final]

/-- An extension tells the same language in any case of its letters. -/
theorem Language.ofExtension_recased (same : Recased n m) :
    Language.ofExtension n = Language.ofExtension m := by
  have lower : n.map Language.lowerByte = m.map Language.lowerByte := by
    induction same with
    | nil => rfl
    | cons first _ ih => rw [List.map_cons, List.map_cons, first.lowerByte, ih]
  rw [← ofExtension_lower, lower, ofExtension_lower]

/-- A name tells the same language in any case of its letters. -/
theorem Language.ofName_recased (same : Recased n m) :
    Language.ofName n = Language.ofName m := by
  have extensions := Path.nameExtension?_recased same
  rw [Language.ofName, Language.ofName]
  generalize Path.nameExtension? n = extension, Path.nameExtension? m = other at extensions
  cases extensions with
  | none => rfl
  | some same => exact Language.ofExtension_recased same

/-- A name without a dot behind its first character has no extension. -/
theorem Language.ofName_of_noDot (noDot : Path.dot ∉ n.tail) : Language.ofName n = .other := by
  cases extension : Path.nameExtension? n with
  | none => rw [Language.ofName, extension, Option.elim_none]
  | some ext =>
      exfalso
      obtain ⟨stem, rfl, some_, -⟩ := Path.exists_stem extension
      obtain ⟨b, stem, rfl⟩ := List.exists_cons_of_ne_nil some_
      exact noDot (by simp)

example : Language.ofName (Path.ofString ".java").bytes = .other ∧
    Language.ofName (Path.ofString "..java").bytes = .java := by decide

end Names

/-! ### Requests that spell their files in other ways -/

section Requests

variable {f g : SourceFile} {fs gs : List SourceFile} {layout : Layout} {id : String}
  {data other : RequestData}

/-- Two files have the same final name. -/
def SourceFile.Namesake (f g : SourceFile) : Prop := f.path.Namesake g.path

instance (f g : SourceFile) : Decidable (f.Namesake g) :=
  inferInstanceAs (Decidable (f.path.Namesake g.path))

/-- Two requests ask the same about files of the same final names. -/
inductive RequestData.Respelled : RequestData → RequestData → Prop
  | analyze {kind : AnalysisKind} {f g : SourceFile} {position : Option Position} :
      f.Namesake g → Respelled (.analyze ⟨kind, f, position⟩) (.analyze ⟨kind, g, position⟩)
  | analyzeBatch {kind : AnalysisKind} {fs gs : List SourceFile} :
      List.Forall₂ SourceFile.Namesake fs gs →
      Respelled (.analyzeBatch ⟨kind, fs⟩) (.analyzeBatch ⟨kind, gs⟩)

/-- Two deliveries are for the same worker and differ in the spelling of files at most. -/
structure Delivery.Respelled (d e : Delivery) : Prop where
  worker : d.worker = e.worker
  id : d.request.id = e.request.id
  data : d.request.data.Respelled e.request.data

theorem SourceFile.Namesake.isJava (same : f.Namesake g) : f.isJava = g.isJava := by
  have language : f.language = g.language := Path.Namesake.language same
  rw [SourceFile.isJava, SourceFile.isJava, language]

/-- Files of one final name go to the same worker. -/
theorem SourceFile.Namesake.workerFor (same : f.Namesake g) (layout : Layout) :
    layout.workerFor f = layout.workerFor g := by
  rw [Layout.workerFor, Layout.workerFor, same.isJava]

/-- A batch is divided at the same places. -/
theorem AnalyzeBatchParams.deliveries_respelled (same : List.Forall₂ SourceFile.Namesake fs gs)
    (kind : AnalysisKind) (layout : Layout) (id : String) :
    List.Forall₂ Delivery.Respelled ((AnalyzeBatchParams.mk kind fs).deliveries layout id)
      ((AnalyzeBatchParams.mk kind gs).deliveries layout id) := by
  have java : List.Forall₂ SourceFile.Namesake (fs.filter (·.isJava)) (gs.filter (·.isJava)) :=
    List.rel_filter (fun _ _ namesake => by simp only [namesake.isJava]) same
  have others : List.Forall₂ SourceFile.Namesake (fs.filter (!·.isJava)) (gs.filter (!·.isJava)) :=
    List.rel_filter (fun _ _ namesake => by simp only [namesake.isJava]) same
  have all := List.rel_append java others
  unfold AnalyzeBatchParams.deliveries
  dsimp only
  generalize fs.filter (·.isJava) = fs₁, gs.filter (·.isJava) = gs₁,
    fs.filter (!·.isJava) = fs₂, gs.filter (!·.isJava) = gs₂ at java others all
  cases java with
  | nil => exact .cons ⟨rfl, rfl, .analyzeBatch others⟩ .nil
  | cons first rest =>
      cases others with
      | nil => exact .cons ⟨rfl, rfl, .analyzeBatch all⟩ .nil
      | cons first' rest' =>
          cases layout with
          | javaOnly => exact .cons ⟨rfl, rfl, .analyzeBatch all⟩ .nil
          | mixed =>
              exact .cons ⟨rfl, rfl, .analyzeBatch (.cons first rest)⟩
                (.cons ⟨rfl, rfl, .analyzeBatch (.cons first' rest')⟩ .nil)

/-- Requests that spell the same files are planned alike. -/
theorem plan_respelled (same : data.Respelled other) (layout : Layout) (id : String) :
    ∃ ds es, plan layout ⟨id, data⟩ = .ok (.forward ds) ∧
      plan layout ⟨id, other⟩ = .ok (.forward es) ∧ List.Forall₂ Delivery.Respelled ds es := by
  cases same with
  | analyze namesake =>
      exact ⟨_, _, rfl, rfl, .cons ⟨namesake.workerFor layout, rfl, .analyze namesake⟩ .nil⟩
  | analyzeBatch namesakes =>
      exact ⟨_, _, rfl, rfl, AnalyzeBatchParams.deliveries_respelled namesakes _ layout id⟩

end Requests

/-! ### Scans that spell what they find in other ways -/

open Files in
/-- A scan asks for nothing but the final names of the files it finds. -/
theorem scanRoots_respelled {files : Node} {roots : List Path} {spelling : Path → Path}
    (proper : files.all properEntries = true)
    (same : ∀ root ∈ roots, ∀ p ∈ files.filesFound root, (spelling p).Namesake p) :
    scanRoots files roots = .mixed ↔
      ∃ root ∈ roots, ∃ p ∈ files.filesFound root, isNonJavaSource (spelling p) = true := by
  have byName : AsksName isNonJavaSource := by
    intro p q namesake
    rw [isNonJavaSource, isNonJavaSource, namesake.language]
  rw [scanRoots_eq_mixed]
  refine exists_congr fun root => and_congr_right fun mem => ?_
  rw [Node.hasFile_eq_any byName proper, List.any_eq_true]
  refine exists_congr fun p => and_congr_right fun inside => ?_
  rw [byName _ _ (same root mem p inside)]

/-! ### Files on the wire -/

section Wire

variable {F : Format Json} {f : SourceFile} {v : Json}

/-- A file is read from nothing but the text of its path. -/
theorem SourceFile.eq_spelled_of_decode (seen : F.view = Json.view)
    (decoded : SourceFile.decode F v = .ok f) : v = f.path.spelled := by
  obtain ⟨p, path, rfl⟩ := ok_of_map decoded
  unfold Path.decode at path
  split at path
  · rename_i s text
    obtain rfl := Except.ok.inj path
    rw [seen] at text
    cases v with
    | str t =>
        cases text
        rw [Path.spelled, Path.toString?_ofString, Option.getD_some]
    | num n => cases n <;> cases text
    | _ => cases text
  · cases path

/-- A path that is not text is not written. -/
theorem SourceFile.encode_of_not_written (noText : ¬ f.path.Written) :
    f.encode = .error .pathNotText := by
  have none_ : f.path.toString? = none := by
    rw [Option.eq_none_iff_forall_ne_some]
    intro s text
    exact noText ⟨s, Path.ofString_of_toString? text⟩
  simp only [SourceFile.encode, Path.encode, none_]

/-- A text is read back from its JSON string. -/
theorem Json.parse_text (s : String) : Json.parse (Json.renderChars (.str s)) = .ok (.str s) :=
  Json.parse_renderChars (Nat.zero_le _) nofun

end Wire

/-! ### Final names -/

/-- All paths of a final name are classified by it. -/
structure Path.TellsLanguage (n : List UInt8) : Prop where
  /-- The paths of the final name are its spellings. -/
  spelled : ∀ p : Path, p.fileName? = some n ↔ p.Spells n
  /-- They have the language of the name alone. -/
  language : ∀ p : Path, p.Spells n → Language.ofPath p = Language.ofPath ⟨n⟩
  /-- The case of letters does not count, in the extension or elsewhere in the name. -/
  recased : ∀ (m : List UInt8) (p : Path), Recased n m → p.Spells m →
    Language.ofPath p = Language.ofPath ⟨n⟩
  /-- Without a dot behind its first character the name has no known language. -/
  noDot : Path.dot ∉ n.tail → Language.ofPath ⟨n⟩ = .other

/-- How a name tells the language of its file. -/
theorem Path.IsName.tellsLanguage {n : List UInt8} (proper : IsName n) : TellsLanguage n := by
  have named {m : List UInt8} {p : Path} (proper : IsName m) (spells : p.Spells m) :
      Language.ofPath p = Language.ofName m :=
    Language.ofPath_of_fileName? (spells.fileName? proper)
  constructor
  · intro p
    rw [fileName?_eq_some_iff]
    exact and_iff_right proper
  · intro p spells
    rw [named proper spells, named proper .alone]
  · intro m p same spells
    rw [named (same.isName proper) spells, named proper .alone, Language.ofName_recased same]
  · intro noDot
    rw [named proper .alone, Language.ofName_of_noDot noDot]

/-- **Files are classified by their final names.** All spellings of a name have its language, in any
case of the letters; a name without an extension has none that is known. Requests that spell their
files in other ways are planned alike, and a scan finds the same if it spells files in other ways.
What is written for a file is read as the same file, and what is read as a file has the language of
its text. -/
theorem classified_by_final_name :
    (∀ n, Path.IsName n → Path.TellsLanguage n) ∧
      (∀ s : String, s ≠ "" → s ≠ "." → s ≠ ".." → '/' ∉ s.toList →
        ∀ (directory : String) (trail : List String), (∀ t ∈ trail, t = "/" ∨ t = "/.") →
          Language.ofPath (.ofString (directory ++ "/" ++ s ++ String.join trail)) =
            Language.ofPath (.ofString s)) ∧
      (∀ (layout : Layout) (id : String) (data other : RequestData), data.Respelled other →
        ∃ ds es, plan layout ⟨id, data⟩ = .ok (.forward ds) ∧
          plan layout ⟨id, other⟩ = .ok (.forward es) ∧
          List.Forall₂ Delivery.Respelled ds es) ∧
      (∀ (files : Files.Node) (roots : List Path) (spelling : Path → Path),
        files.all Files.properEntries = true →
        (∀ root ∈ roots, ∀ p ∈ files.filesFound root, (spelling p).Namesake p) →
        (scanRoots files roots = .mixed ↔
          ∃ root ∈ roots, ∃ p ∈ files.filesFound root, isNonJavaSource (spelling p) = true)) ∧
      ∀ F : Format Json, F.view = Json.view →
        (∀ f : SourceFile, f.path.Written → ∃ s, f.encode = .ok (.str s) ∧
          Json.parse (Json.renderChars (.str s)) = .ok (.str s) ∧
          SourceFile.decode F (.str s) = .ok f) ∧
        (∀ f : SourceFile, ¬ f.path.Written → f.encode = .error .pathNotText) ∧
        ∀ v f, SourceFile.decode F v = .ok f →
          f.encode = .ok v ∧ ∃ s, v = .str s ∧ f.language = Language.ofPath (.ofString s) := by
  refine ⟨fun n proper => proper.tellsLanguage, ?_,
    fun layout id data other same => plan_respelled same layout id,
    fun files roots spelling proper same => scanRoots_respelled proper same, ?_⟩
  · intro s some_ one two single directory trail idle
    have proper := Path.isName_ofString some_ one two single
    have spells := (Path.spells_text directory s).text idle
    exact proper.tellsLanguage.language _ spells
  · intro F seen
    refine ⟨?_, fun f noText => SourceFile.encode_of_not_written noText, ?_⟩
    · intro f written
      exact ⟨_, written.encode, Json.parse_text _, SourceFile.decode_spelled written seen⟩
    · intro v f decoded
      obtain rfl := SourceFile.eq_spelled_of_decode seen decoded
      have written := SourceFile.written_of_decode decoded
      refine ⟨written.encode, _, rfl, ?_⟩
      obtain ⟨s, text⟩ := written
      rw [SourceFile.language, text, Path.toString?_ofString, Option.getD_some]

open Files in
/-- A Kotlin file and a Java file in several spellings: of their paths, in a batch, and where a scan
finds one of them. -/
theorem classified_by_final_name_of_respelled_files :
    let kotlin := (Path.ofString "b.kt").bytes
    let shouted := (Path.ofString "b.KT").bytes
    let p := Path.ofString "/src//./b.KT/./"
    let data := RequestData.analyzeBatch
      ⟨.hover, [⟨.ofString "A.java"⟩, ⟨.ofString "b.kt"⟩]⟩
    let other := RequestData.analyzeBatch
      ⟨.hover, [⟨.ofString "/src/A.java/."⟩, ⟨.ofString "../b.kt/"⟩]⟩
    let files := Node.folder [(name "src", .folder [(name "b.kt", .file [])])]
    let roots := [Path.ofString "./src"]
    let spelling (p : Path) : Path := ⟨p.bytes ++ [Path.slash, Path.dot]⟩
    let f : SourceFile := ⟨p⟩
    (Path.IsName kotlin ∧ Recased kotlin shouted ∧ p.Spells shouted ∧
        Language.ofPath p = .kotlin) ∧
      ('/' ∉ "b.kt".toList ∧ (∀ t ∈ ["/", "/."], t = "/" ∨ t = "/.") ∧
        Language.ofPath (.ofString ("src" ++ "/" ++ "b.kt" ++ String.join ["/", "/."])) = .kotlin) ∧
      (data.Respelled other ∧ ∃ ds es, plan .mixed ⟨"1", data⟩ = .ok (.forward ds) ∧
        plan .mixed ⟨"1", other⟩ = .ok (.forward es) ∧ List.Forall₂ Delivery.Respelled ds es) ∧
      (files.all properEntries = true ∧
        (∀ root ∈ roots, ∀ p ∈ files.filesFound root, (spelling p).Namesake p) ∧
        scanRoots files roots = .mixed) ∧
      Json.valueFormat.view = Json.view ∧ f.path.Written ∧
        ∃ s, f.encode = .ok (.str s) ∧ SourceFile.decode Json.valueFormat (.str s) = .ok f := by
  intro kotlin shouted p data other files roots spelling f
  obtain ⟨names, texts, requests, scans, wire⟩ := classified_by_final_name
  have isName : Path.IsName kotlin := by decide
  have recased : Recased kotlin shouted :=
    .cons (.same _) (.cons (.same _) (.cons (.raised (b := 0x4b) (by decide) (by decide))
      (.cons (.raised (b := 0x54) (by decide) (by decide)) .nil)))
  have spells : p.Spells shouted := (Path.fileName?_eq_some_iff.mp (by decide +kernel)).2
  have language : Language.ofPath ⟨kotlin⟩ = .kotlin := by decide +kernel
  have single : '/' ∉ "b.kt".toList := by decide
  have idle : ∀ t ∈ ["/", "/."], t = "/" ∨ t = "/." := by decide
  have text := texts "b.kt" (by decide) (by decide) (by decide) single "src" ["/", "/."] idle
  have same : data.Respelled other :=
    .analyzeBatch (.cons (by decide +kernel) (.cons (by decide +kernel) .nil))
  have proper : files.all properEntries = true := by decide +kernel
  have namesakes : ∀ root ∈ roots, ∀ p ∈ files.filesFound root, (spelling p).Namesake p := by
    decide +kernel
  have mixed := (scans files roots spelling proper namesakes).mpr (by decide +kernel)
  have written : f.path.Written := ⟨_, rfl⟩
  obtain ⟨s, encoded, -, decoded⟩ := (wire Json.valueFormat rfl).1 f written
  have spelled := (names kotlin isName).recased shouted p recased spells
  exact ⟨⟨isName, recased, spells, spelled.trans language⟩,
    ⟨single, idle, text.trans language⟩, ⟨same, requests .mixed "1" data other same⟩,
    ⟨proper, namesakes, mixed⟩, rfl, written, s, encoded, decoded⟩

end SessionBroker
