import Mathlib.Data.List.Forall2
import ZoneStore.Config.Load
import ZoneStore.Proofs.Settings.Arguments

/-!
# Records files beside the configuration

A records file is named relative to the directory of the configuration that
names it. The configuration is loaded by putting the directory in front of
the path, in the argument's own text, which the settings are then read
from. Settings are read from any spelling of an argument, but only one that
begins with the key and a space is changed, and what blanks the directory
begins with are read as part of the white space behind the key.
-/

namespace ZoneStore

open Text

namespace Path

variable {directory path : List Char}

theorem join_of_isAbsolute (hAbsolute : isAbsolute path = true) : join directory path = path :=
  if_pos hAbsolute

/-- A relative path stands behind the directory, closed by a slash. -/
theorem join_eq_append (hRelative : isAbsolute path = false) :
    join directory path = join directory [] ++ path := by
  unfold join
  rw [hRelative]
  have hNil : isAbsolute [] = false := rfl
  rw [hNil, if_neg Bool.false_ne_true, if_neg Bool.false_ne_true]
  split
  · rw [List.append_nil]
  · rw [List.append_assoc]
    rfl

theorem exists_join_cons (c : Char) (rest : List Char) :
    ∃ more, join (c :: rest) [] = c :: more := by
  unfold join
  rw [if_neg (by decide)]
  split
  · exact ⟨rest ++ [], rfl⟩
  · exact ⟨rest ++ ['/'], rfl⟩

theorem isAbsolute_congr {other : List Char} (hHead : path.head? = other.head?) :
    isAbsolute path = isAbsolute other := by
  rw [isAbsolute, isAbsolute, hHead]

/-- Blanks in front of a joined path belong to the directory, if anything does. -/
theorem trimStart_join_eq_iff (hRelative : isAbsolute path = false)
    (hPath : ∀ c ∈ path.head?, isBlank c = false) :
    trimStart (join directory path) = join directory path ↔
      ∀ c ∈ directory.head?, isBlank c = false := by
  rw [trimStart_eq_self_iff, join_eq_append hRelative]
  cases directory with
  | nil => simpa [join, isAbsolute] using hPath
  | cons c rest =>
    obtain ⟨more, hMore⟩ := exists_join_cons c rest
    rw [hMore]
    rfl

theorem join_eq_self_iff (hRelative : isAbsolute path = false) :
    join directory path = path ↔ directory = [] := by
  rw [join_eq_append hRelative]
  cases directory with
  | nil => simp [join, isAbsolute]
  | cons c rest =>
    obtain ⟨more, hMore⟩ := exists_join_cons c rest
    rw [hMore]
    constructor
    · intro hSame
      have hLength := congrArg List.length hSame
      simp only [List.cons_append, List.length_cons, List.length_append] at hLength
      omega
    · rintro ⟨⟩

end Path

/-! ## Reading an argument -/

namespace Settings

variable {key : List Char} {blank : Char}

/-- An argument is split behind its key, whatever blank follows the key. -/
theorem splitBlank_trim (hNonempty : key ≠ []) (hKey : ∀ c ∈ key, isBlank c = false)
    (hBlank : isBlank blank = true) (text : List Char) :
    splitBlank (trim (key ++ blank :: text)) =
      if trim text = [] then none else some (key, trimEnd text) := by
  have hStart : trimStart (key ++ blank :: text) = key ++ blank :: text := by
    obtain ⟨c, rest, rfl⟩ := List.exists_cons_of_ne_nil hNonempty
    exact trimStart_cons_of_not_isBlank (hKey c List.mem_cons_self) _
  rw [trim, hStart, trimEnd_append, trimEnd_cons, if_pos hBlank]
  by_cases hText : trimEnd text = []
  · rw [if_pos hText, if_pos rfl, if_pos (trim_eq_nil_iff.mpr hText), trimEnd_eq_self hKey,
      splitBlank_eq_none_iff.mpr hKey]
  · rw [if_neg hText, if_neg (List.cons_ne_nil _ _),
      if_neg fun hNil => hText (trim_eq_nil_iff.mp hNil), splitBlank_append hKey hBlank]

/-- What is behind the key of the records file and a space is read as the path, trimmed. -/
theorem readArgument_recordsKey_eq_ok_iff {text : List Char} {argument : Argument} :
    readArgument (String.ofList (Config.recordsKey ++ text)) = .ok argument ↔
      trim text ≠ [] ∧ argument = .records (String.ofList (trim text)) := by
  have hKey : ∀ c ∈ "records".toList, isBlank c = false := by
    have hAll : "records".toList.all (fun c => !isBlank c) = true := by decide
    intro c hc
    simpa using List.all_eq_true.mp hAll c hc
  have hSplit : splitBlank (trim ("records".toList ++ ' ' :: text)) =
      if trim text = [] then none else some ("records".toList, trimEnd text) :=
    splitBlank_trim (by decide) hKey (by decide) text
  have hSame : Config.recordsKey ++ text = "records".toList ++ ' ' :: text := rfl
  unfold readArgument
  dsimp only
  rw [String.toList_ofList, hSame, hSplit]
  by_cases hText : trim text = []
  · rw [if_pos hText]
    simp [hText]
  · rw [if_neg hText]
    dsimp only
    rw [if_pos rfl, trimStart_trimEnd, Except.ok.injEq]
    simp [hText, eq_comm]

end Settings

/-! ## Relocating an argument -/

namespace Config

variable {directory : List Char} {argument path : String}

/-- Where the file is that a relocated argument names, when it named `path` as it was written. -/
def recordsPlace (directory : List Char) (argument path : String) : String :=
  if recordsKey.isPrefixOf argument.toList && !Path.isAbsolute path.toList then
    String.ofList (trimStart (Path.join directory path.toList))
  else path

theorem exists_recordsKey_append (hPrefix : recordsKey.isPrefixOf argument.toList = true) :
    ∃ text, argument = String.ofList (recordsKey ++ text) := by
  obtain ⟨text, hText⟩ := List.isPrefixOf_iff_prefix.mp hPrefix
  exact ⟨text, by rw [hText, String.ofList_toList]⟩

theorem relocateArgument_of_not_isPrefixOf
    (hPrefix : recordsKey.isPrefixOf argument.toList = false) :
    relocateArgument directory argument = argument := by
  unfold relocateArgument
  dsimp only
  rw [hPrefix, if_neg Bool.false_ne_true]

theorem relocateArgument_recordsKey_append (directory text : List Char) :
    relocateArgument directory (String.ofList (recordsKey ++ text)) =
      if Path.isAbsolute (trimStart text) then String.ofList (recordsKey ++ text)
      else String.ofList (recordsKey ++ Path.join directory (trimStart text)) := by
  unfold relocateArgument
  dsimp only
  rw [String.toList_ofList, if_pos (List.isPrefixOf_iff_prefix.mpr (List.prefix_append _ _)),
    List.drop_left]

/-- An argument that names a records file still does so when it is relocated. -/
theorem readArgument_relocateArgument
    (hRead : Settings.readArgument argument = .ok (.records path)) :
    Settings.readArgument (relocateArgument directory argument) =
      .ok (.records (recordsPlace directory argument path)) := by
  unfold recordsPlace
  cases hPrefix : recordsKey.isPrefixOf argument.toList with
  | false =>
    rw [relocateArgument_of_not_isPrefixOf hPrefix]
    exact hRead
  | true =>
    obtain ⟨text, rfl⟩ := exists_recordsKey_append hPrefix
    obtain ⟨hText, hPath⟩ := Settings.readArgument_recordsKey_eq_ok_iff.mp hRead
    cases hPath
    have hAbsolute := Path.isAbsolute_congr (head?_trim hText)
    rw [relocateArgument_recordsKey_append, String.toList_ofList, ← hAbsolute]
    cases hTrim : Path.isAbsolute (trim text) with
    | true => exact hRead
    | false =>
      have hRelative : Path.isAbsolute (trimStart text) = false := hAbsolute ▸ hTrim
      have hPlace : trim (Path.join directory (trimStart text)) =
          trimStart (Path.join directory (trim text)) := by
        rw [Path.join_eq_append hRelative, Path.join_eq_append hTrim,
          trim_append_trimStart _ hText]
      refine Settings.readArgument_recordsKey_eq_ok_iff.mpr ⟨?_, ?_⟩
      · rw [Path.join_eq_append hRelative]
        exact trim_append_trimStart_ne_nil _ hText
      · rw [hPlace]
        rfl

/-- No other argument is changed. -/
theorem relocateArgument_of_ttl {value : Ttl}
    (hRead : Settings.readArgument argument = .ok (.ttl value)) :
    relocateArgument directory argument = argument := by
  cases hPrefix : recordsKey.isPrefixOf argument.toList with
  | false => exact relocateArgument_of_not_isPrefixOf hPrefix
  | true =>
    obtain ⟨text, rfl⟩ := exists_recordsKey_append hPrefix
    obtain ⟨-, hPath⟩ := Settings.readArgument_recordsKey_eq_ok_iff.mp hRead
    cases hPath

/--
The file is looked for in the directory if the key and a space begin the argument and no blank
begins the directory, and otherwise only if it does not matter.
-/
theorem recordsPlace_eq_join_iff (hRead : Settings.readArgument argument = .ok (.records path)) :
    recordsPlace directory argument path = String.ofList (Path.join directory path.toList) ↔
      Path.isAbsolute path.toList = true ∨ directory = [] ∨
        recordsKey.isPrefixOf argument.toList = true ∧
          ∀ c ∈ directory.head?, isBlank c = false := by
  unfold recordsPlace
  cases hAbsolute : Path.isAbsolute path.toList with
  | true => simp [Path.join_of_isAbsolute hAbsolute]
  | false =>
    cases hPrefix : recordsKey.isPrefixOf argument.toList with
    | false =>
      have hJoin : Path.join directory path.toList = path.toList ↔ directory = [] :=
        Path.join_eq_self_iff hAbsolute
      simp only [Bool.false_and, Bool.false_eq_true, if_false, false_and, or_false, false_or]
      rw [← hJoin, ← String.toList_inj, String.toList_ofList, eq_comm]
    | true =>
      obtain ⟨text, rfl⟩ := exists_recordsKey_append hPrefix
      obtain ⟨-, hPath⟩ := Settings.readArgument_recordsKey_eq_ok_iff.mp hRead
      cases hPath
      rw [String.toList_ofList] at hAbsolute ⊢
      have hHead : ∀ c ∈ (trim text).head?, isBlank c = false := by
        rw [← trimStart_trimEnd]
        exact head?_trimStart _
      have hTrim : trimStart (Path.join directory (trim text)) =
          Path.join directory (trim text) ↔ ∀ c ∈ directory.head?, isBlank c = false :=
        Path.trimStart_join_eq_iff hAbsolute hHead
      simp only [Bool.not_false, Bool.true_and, if_true, Bool.false_eq_true, false_or, true_and]
      rw [String.ofList_inj, hTrim]
      constructor
      · exact .inr
      · rintro (rfl | hDirectory)
        · simp
        · exact hDirectory

end Config

/-! ## Reading the arguments of an instance -/

namespace Settings

open Config

/-- The argument that names the records file is brought to the front; no other is changed. -/
theorem Say.relocated (directory : List Char) {arguments : List String} {path : String}
    (times : List Ttl) (hSay : Say arguments (.records path :: times.map .ttl)) :
    ∃ argument ∈ arguments, readArgument argument = .ok (.records path) ∧
      Say (arguments.map (relocateArgument directory))
        (.records (recordsPlace directory argument path) :: times.map .ttl) := by
  obtain ⟨argument, rest, hOrder, hMeans, hRest⟩ := hSay.exists_cons
  have hRead := readArgument_eq_ok_iff.mpr hMeans
  have hSame : ∀ other ∈ rest, relocateArgument directory other = other := by
    intro other hOther
    obtain ⟨_, hTime, hTimeMeans⟩ := hRest.exists_means hOther
    obtain ⟨value, -, rfl⟩ := List.mem_map.mp hTime
    exact relocateArgument_of_ttl (readArgument_eq_ok_iff.mpr hTimeMeans)
  have hMoved : (arguments.map (relocateArgument directory)).Perm
      (relocateArgument directory argument :: rest) := by
    have hMap := hOrder.map (relocateArgument directory)
    rwa [List.map_cons, List.map_congr_left hSame, List.map_id'] at hMap
  refine ⟨argument, hOrder.mem_iff.mpr List.mem_cons_self, hRead, Say.perm ?_ hMoved.symm⟩
  exact Say.cons_iff.mpr
    ⟨_, _, readArgument_eq_ok_iff.mp (readArgument_relocateArgument hRead), hRest, .rfl⟩

/-- One argument names the records file, and relocating all of them relocates that one. -/
theorem ofArguments_relocated (directory : List Char) {arguments : List String}
    {settings : Settings} (hRead : ofArguments arguments = .ok settings) :
    ∃ argument ∈ arguments, readArgument argument = .ok (.records settings.records) ∧
      ofArguments (arguments.map (relocateArgument directory)) =
        .ok ⟨recordsPlace directory argument settings.records, settings.defaultTtl⟩ := by
  simp only [ofArguments_eq_ok_iff] at hRead ⊢
  obtain ⟨hSay, hTtl⟩ | hSay := hRead
  · obtain ⟨argument, hMem, hArgument, hMoved⟩ := Say.relocated directory [] hSay
    exact ⟨argument, hMem, hArgument, .inl ⟨hMoved, hTtl⟩⟩
  · obtain ⟨argument, hMem, hArgument, hMoved⟩ := Say.relocated directory [settings.defaultTtl] hSay
    exact ⟨argument, hMem, hArgument, .inr hMoved⟩

end Settings

/-! ## Loading a configuration -/

namespace Config

/--
The settings of an instance are still valid when its configuration is loaded. The time to live
stays, and the records file is found in the directory of the configuration exactly if its
argument begins with the key and a space and the directory with no blank, if the path is
absolute, or if there is no directory to be put in front. Otherwise the path stays as it was
written, or loses the blanks that the directory begins with.
-/
theorem load_places_records {read : FileReader} {path text : String} {directory : List Char}
    {written : Config} (hParent : Path.parent? path.toList = some directory)
    (hRead : read path = .ok text) (hText : ofText text = .ok written) :
    ∃ loaded, (load read path).1 = .ok loaded ∧ loaded.zones = written.zones ∧
      List.Forall₂ (fun entry moved => moved.name = entry.name ∧
        ∀ settings, Settings.ofArguments entry.arguments = .ok settings →
          ∃ argument ∈ entry.arguments,
            Settings.readArgument argument = .ok (.records settings.records) ∧
            Settings.ofArguments moved.arguments =
              .ok ⟨recordsPlace directory argument settings.records, settings.defaultTtl⟩ ∧
            (recordsPlace directory argument settings.records =
                String.ofList (Path.join directory settings.records.toList) ↔
              Path.isAbsolute settings.records.toList = true ∨ directory = [] ∨
                recordsKey.isPrefixOf argument.toList = true ∧
                  ∀ c ∈ directory.head?, isBlank c = false))
        written.instances loaded.instances := by
  have hLoad : (load read path).1 = .ok (written.relocate directory) := by
    unfold load
    rw [hParent]
    dsimp only
    rw [hRead]
    dsimp only
    rw [hText]
  refine ⟨written.relocate directory, hLoad, rfl, ?_⟩
  unfold relocate
  rw [List.forall₂_map_right_iff, List.forall₂_same]
  intro entry _
  refine ⟨rfl, ?_⟩
  intro settings hSettings
  obtain ⟨argument, hMem, hArgument, hAll⟩ := Settings.ofArguments_relocated directory hSettings
  exact ⟨argument, hMem, hArgument, hAll, recordsPlace_eq_join_iff hArgument⟩

/-- The files of a configuration in a directory, with some blank behind the key of its argument. -/
def besideReader (blank : String) : FileReader := fun path =>
  if path = "c/q.toml" then
    .ok ("[[instances]]\nname = \"i\"\nargs = [\"records" ++ blank ++ "r.toml\"]\n")
  else .error .notFound

theorem load_places_records_besideReader :
    ∃ loaded, (load (besideReader " ") "c/q.toml").1 = .ok loaded ∧
      loaded.instances.map (fun entry => Settings.ofArguments entry.arguments) =
        [.ok ⟨"c/r.toml", Settings.standardTtl⟩] := by
  have hText : ofText "[[instances]]\nname = \"i\"\nargs = [\"records r.toml\"]\n" =
      .ok ⟨[⟨"i", ["records r.toml"]⟩], []⟩ := by
    decide +kernel
  obtain ⟨loaded, hLoad, -, hInstances⟩ := load_places_records
    (show Path.parent? "c/q.toml".toList = some ['c'] by decide)
    (show besideReader " " "c/q.toml" = .ok _ from rfl) hText
  obtain ⟨moved, rest, ⟨-, hMoved⟩, hRest, hEntries⟩ := List.forall₂_cons_left_iff.mp hInstances
  obtain ⟨argument, hMem, -, hSettings, -⟩ := hMoved ⟨"r.toml", Settings.standardTtl⟩ (by decide)
  have hPlace : recordsPlace ['c'] "records r.toml" "r.toml" = "c/r.toml" := by decide
  rw [List.mem_singleton.mp hMem, hPlace] at hSettings
  refine ⟨loaded, hLoad, ?_⟩
  rw [hEntries, List.forall₂_nil_left_iff.mp hRest, List.map_singleton, hSettings]

/-- A records file is not always found beside the configuration: a tab behind the key is enough. -/
theorem records_not_always_beside :
    ¬∀ (read : FileReader) (path text : String) (directory : List Char) (written loaded : Config),
      Path.parent? path.toList = some directory → read path = .ok text →
      ofText text = .ok written → (load read path).1 = .ok loaded →
      List.Forall₂ (fun entry moved => ∀ settings,
          Settings.ofArguments entry.arguments = .ok settings →
          Settings.ofArguments moved.arguments =
            .ok ⟨String.ofList (if Path.isAbsolute settings.records.toList then
                settings.records.toList
              else Path.join directory settings.records.toList), settings.defaultTtl⟩)
        written.instances loaded.instances := by
  intro hBeside
  have hText : ofText "[[instances]]\nname = \"i\"\nargs = [\"records\\tr.toml\"]\n" =
      .ok ⟨[⟨"i", ["records\tr.toml"]⟩], []⟩ := by
    decide +kernel
  have hLoad : (load (besideReader "\\t") "c/q.toml").1 =
      .ok ⟨[⟨"i", ["records\tr.toml"]⟩], []⟩ := by
    decide +kernel
  have hInstances := hBeside (besideReader "\\t") "c/q.toml" _ ['c'] _ _ (by decide) rfl hText hLoad
  obtain ⟨moved, _, hMoved, _, hEntries⟩ := List.forall₂_cons_left_iff.mp hInstances
  cases hEntries
  have hSettings := hMoved ⟨"r.toml", Settings.standardTtl⟩ (by decide)
  revert hSettings
  decide

end Config

end ZoneStore
