import Mathlib.Data.List.Perm.Basic
import ZoneStore.Proofs.Settings.Spelling

/-!
# Arguments in any order

The arguments of an instance are accepted for what they say together: one
names the records file, and at most one other gives a time to live. Their
order does not count. It counts only for the error when they are not
accepted, which is that of the first argument that says nothing or repeats
a key, and the missing key if there is no such argument.
-/

namespace ZoneStore.Settings

open Text

variable {arguments earlier other : List String} {argument : String} {said told : List Argument}
  {new : Argument} {settings : Partial} {e : SettingsError}

def Argument.key : Argument → String
  | records _ => "records"
  | ttl _ => "ttl"

/-! ## What arguments say together -/

/-- Each argument says one of these things, in some order. -/
def Say (arguments : List String) (said : List Argument) : Prop :=
  ∃ read, List.Forall₂ Means arguments read ∧ read.Perm said

theorem Means.unique {one two : Argument} (hOne : Means argument one) (hTwo : Means argument two) :
    one = two :=
  Except.ok.inj (hOne.readArgument_eq.symm.trans hTwo.readArgument_eq)

theorem Means.not_refuses (hMeans : Means argument new) : ¬Refuses argument e := by
  intro hRefuses
  cases hMeans.readArgument_eq.symm.trans hRefuses.readArgument_eq

theorem Say.nil : Say [] [] :=
  ⟨[], .nil, .nil⟩

theorem Say.perm (hSay : Say arguments said) (hPerm : arguments.Perm other) : Say other said := by
  obtain ⟨read, hRead, hSaid⟩ := hSay
  obtain ⟨order, hOrder, hSame⟩ := List.perm_comp_forall₂ hPerm.symm hRead
  exact ⟨order, hOrder, hSame.trans hSaid⟩

theorem Say.unique (hSay : Say arguments said) (hTell : Say arguments told) : said.Perm told := by
  obtain ⟨read, hRead, hSaid⟩ := hSay
  obtain ⟨again, hAgain, hTold⟩ := hTell
  have hUnique : Relator.RightUnique Means := fun _ _ _ hOne hTwo => hOne.unique hTwo
  obtain rfl := List.right_unique_forall₂' hUnique hRead hAgain
  exact hSaid.symm.trans hTold

theorem Say.append_singleton (hSay : Say arguments said) (hMeans : Means argument new) :
    Say (arguments ++ [argument]) (new :: said) := by
  obtain ⟨read, hRead, hSaid⟩ := hSay
  refine Say.perm ⟨new :: read, .cons hMeans hRead, hSaid.cons new⟩ ?_
  exact (List.perm_append_singleton argument arguments).symm

theorem Say.cons_iff :
    Say (argument :: arguments) told ↔
      ∃ new said, Means argument new ∧ Say arguments said ∧ told.Perm (new :: said) := by
  constructor
  · rintro ⟨_, hRead, hTold⟩
    cases hRead with
    | cons hMeans hRead => exact ⟨_, _, hMeans, ⟨_, hRead, .rfl⟩, hTold.symm⟩
  · rintro ⟨new, said, hMeans, ⟨read, hRead, hSaid⟩, hTold⟩
    exact ⟨new :: read, .cons hMeans hRead, (hSaid.cons new).trans hTold.symm⟩

theorem Say.mem_iff (hSay : Say arguments said) :
    new ∈ said ↔ ∃ argument ∈ arguments, Means argument new := by
  induction arguments generalizing said with
  | nil =>
    obtain ⟨_, ⟨⟩, hSaid⟩ := hSay
    simp [hSaid.symm.eq_nil]
  | cons argument arguments ih =>
    obtain ⟨first, rest, hMeans, hRest, hSaid⟩ := Say.cons_iff.mp hSay
    rw [hSaid.mem_iff, List.mem_cons, ih hRest, List.exists_mem_cons_iff]
    constructor
    · rintro (rfl | hMem)
      · exact .inl hMeans
      · exact .inr hMem
    · rintro (hFirst | hMem)
      · exact .inl (hFirst.unique hMeans)
      · exact .inr hMem

theorem Say.exists_means (hSay : Say arguments said) (hMem : argument ∈ arguments) :
    ∃ new ∈ said, Means argument new := by
  obtain ⟨new, _, hMeans, -, hSaid⟩ := Say.cons_iff.mp (hSay.perm (List.perm_cons_erase hMem))
  exact ⟨new, hSaid.mem_iff.mpr List.mem_cons_self, hMeans⟩

theorem Say.exists_cons (hSay : Say arguments (new :: said)) :
    ∃ argument rest, arguments.Perm (argument :: rest) ∧ Means argument new ∧ Say rest said := by
  obtain ⟨argument, hMem, hMeans⟩ := hSay.mem_iff.mp List.mem_cons_self
  have hOrder := List.perm_cons_erase hMem
  obtain ⟨same, rest, hSame, ⟨read, hRead, hRest⟩, hSaid⟩ := Say.cons_iff.mp (hSay.perm hOrder)
  obtain rfl := hMeans.unique hSame
  exact ⟨argument, _, hOrder, hMeans, read, hRead, hRest.trans hSaid.cons_inv.symm⟩

/-! ## What is noted -/

/-- What has been said when these settings are known. -/
def Partial.noted (settings : Partial) : List Argument :=
  (settings.records.map .records).toList ++ (settings.ttl.map .ttl).toList

theorem Partial.records_mem_noted_iff {path : String} :
    .records path ∈ settings.noted ↔ settings.records = some path := by
  simp [Partial.noted]

theorem Partial.ttl_mem_noted_iff {value : Ttl} :
    .ttl value ∈ settings.noted ↔ settings.ttl = some value := by
  simp [Partial.noted]

theorem Partial.nodup_keys (settings : Partial) : (settings.noted.map Argument.key).Nodup := by
  obtain ⟨_ | path, _ | value⟩ := settings <;> simp [Partial.noted, Argument.key]

theorem Partial.eq_of_perm {final : Partial} (hSame : settings.noted.Perm final.noted) :
    settings = final := by
  obtain ⟨records, ttl⟩ := settings
  obtain ⟨finalRecords, finalTtl⟩ := final
  congr 1
  · refine Option.ext fun path => ?_
    have hMem := hSame.mem_iff (a := .records path)
    rwa [Partial.records_mem_noted_iff, Partial.records_mem_noted_iff] at hMem
  · refine Option.ext fun value => ?_
    have hMem := hSame.mem_iff (a := .ttl value)
    rwa [Partial.ttl_mem_noted_iff, Partial.ttl_mem_noted_iff] at hMem

/-- A thing is noted unless one with its key has been. -/
theorem Partial.put_cases (settings : Partial) (new : Argument) :
    (∃ next, settings.put new = .ok next ∧ next.noted.Perm (new :: settings.noted)) ∨
      (∃ old ∈ settings.noted, old.key = new.key) ∧
        settings.put new = .error (.duplicateKey new.key) := by
  obtain ⟨records, ttl⟩ := settings
  cases new with
  | records path =>
    cases records with
    | none => exact .inl ⟨⟨some path, ttl⟩, rfl, .rfl⟩
    | some first => exact .inr ⟨⟨.records first, List.mem_cons_self, rfl⟩, rfl⟩
  | ttl value =>
    cases ttl with
    | none =>
      refine .inl ⟨⟨records, some value⟩, rfl, ?_⟩
      simp only [noted, Option.map_some, Option.map_none, Option.toList_some, Option.toList_none,
        List.append_nil]
      exact List.perm_append_singleton _ _
    | some first => exact .inr ⟨⟨.ttl first, ttl_mem_noted_iff.mpr rfl, rfl⟩, rfl⟩

/-! ## The argument that is blamed -/

/-- The errors of an argument behind earlier ones. One that says nothing repeats nothing. -/
inductive Offends (earlier : List String) (argument : String) : SettingsError → Prop where
  | refused {e : SettingsError} (hRefuses : Refuses argument e) : Offends earlier argument e
  | repeated {first : String} {old new : Argument} (hNew : Means argument new)
      (hFirst : first ∈ earlier) (hOld : Means first old) (hKey : old.key = new.key) :
      Offends earlier argument (.duplicateKey new.key)

def NoneOffends (arguments : List String) : Prop :=
  ∀ before argument after, arguments = before ++ argument :: after →
    ∀ e, ¬Offends before argument e

/-- The first argument that offends is blamed, or the missing key if none does. -/
inductive IsBlamed (arguments : List String) : SettingsError → Prop where
  | argument {before after : List String} {argument : String} {e : SettingsError}
      (hArguments : arguments = before ++ argument :: after) (hBefore : NoneOffends before)
      (hOffends : Offends before argument e) : IsBlamed arguments e
  | missingKey (hNone : NoneOffends arguments)
      (hRecords : ∀ argument ∈ arguments, ∀ path, ¬Means argument (.records path)) :
      IsBlamed arguments (.missingKey "records")

theorem Say.noneOffends (hSay : Say arguments said) (hKeys : (said.map Argument.key).Nodup) :
    NoneOffends arguments := by
  rintro before argument after rfl e (hRefuses | ⟨hNew, hFirst, hOld, hKey⟩)
  · obtain ⟨_, _, hMeans⟩ := hSay.exists_means (List.mem_append_right before List.mem_cons_self)
    exact hMeans.not_refuses hRefuses
  · rename_i first old new
    -- The two arguments are brought to the front, so that what they say is, too.
    have hOrder : (before ++ argument :: after).Perm
        (argument :: first :: (before.erase first ++ after)) :=
      List.perm_middle.trans (((List.perm_cons_erase hFirst).append_right after).cons argument)
    obtain ⟨new', _, hNew', hSay', hSaid⟩ := Say.cons_iff.mp (hSay.perm hOrder)
    obtain ⟨old', _, hOld', -, hSaid'⟩ := Say.cons_iff.mp hSay'
    obtain rfl := hNew.unique hNew'
    obtain rfl := hOld.unique hOld'
    have hFront := ((hSaid.trans (hSaid'.cons new)).map Argument.key).nodup_iff.mp hKeys
    simp [hKey] at hFront

/-! ## Reading one argument -/

def Partial.read (settings : Partial) (argument : String) : Except SettingsError Partial :=
  match readArgument argument with
  | .error e => .error e
  | .ok new => settings.put new

theorem readInto_cons (settings : Partial) (argument : String) (arguments : List String) :
    readInto settings (argument :: arguments) =
      match settings.read argument with
      | .error e => .error e
      | .ok next => readInto next arguments := by
  rw [readInto, Partial.read]
  cases readArgument argument <;> rfl

/-- Behind arguments that say what is noted, an argument is noted or offends. -/
theorem Say.read_cases (hSay : Say earlier settings.noted) (argument : String) :
    (∃ next, settings.read argument = .ok next ∧ Say (earlier ++ [argument]) next.noted) ∨
      ∃ e, settings.read argument = .error e ∧ Offends earlier argument e := by
  rw [Partial.read]
  cases hArgument : readArgument argument with
  | error e => exact .inr ⟨e, rfl, .refused (readArgument_eq_error_iff.mp hArgument)⟩
  | ok new =>
    have hNew := readArgument_eq_ok_iff.mp hArgument
    obtain ⟨next, hPut, hNext⟩ | ⟨⟨old, hMem, hKey⟩, hPut⟩ := settings.put_cases new
    · obtain ⟨read, hRead, hSaid⟩ := hSay.append_singleton hNew
      exact .inl ⟨next, hPut, read, hRead, hSaid.trans hNext.symm⟩
    · obtain ⟨first, hFirst, hOld⟩ := hSay.mem_iff.mp hMem
      exact .inr ⟨_, hPut, .repeated hNew hFirst hOld hKey⟩

theorem Offends.read_eq (hOffends : Offends earlier argument e)
    (hSay : Say earlier settings.noted) : settings.read argument = .error e := by
  cases hOffends with
  | refused hRefuses => rw [Partial.read, hRefuses.readArgument_eq]
  | @repeated first old new hNew hFirst hOld hKey =>
    rw [Partial.read, hNew.readArgument_eq]
    have hOldMem : old ∈ settings.noted := hSay.mem_iff.mpr ⟨first, hFirst, hOld⟩
    obtain ⟨next, -, hNext⟩ | ⟨-, hPut⟩ := settings.put_cases new
    · have hKeys := (hNext.map Argument.key).nodup_iff.mp next.nodup_keys
      rw [List.map_cons, List.nodup_cons, ← hKey] at hKeys
      exact absurd (List.mem_map_of_mem hOldMem) hKeys.1
    · exact hPut

/-! ## Reading all arguments -/

/-- By induction from the last argument on: all are noted, or the first that offends ends it. -/
theorem ofArguments_cases (arguments : List String) :
    (∃ settings : Partial, Say arguments settings.noted ∧
        ∀ rest, ofArguments (arguments ++ rest) = readInto settings rest) ∨
      ∃ before argument after e, arguments = before ++ argument :: after ∧ NoneOffends before ∧
        Offends before argument e ∧ ∀ rest, ofArguments (arguments ++ rest) = .error e := by
  induction arguments using List.reverseRecOn with
  | nil => exact .inl ⟨⟨none, none⟩, .nil, fun _ => rfl⟩
  | append_singleton arguments argument ih =>
    simp only [List.append_assoc, List.singleton_append]
    obtain ⟨settings, hSay, hRun⟩ | ⟨before, blamed, after, e, rfl, hBefore, hOffends, hRun⟩ := ih
    · obtain ⟨next, hRead, hNext⟩ | ⟨e, hRead, hOffends⟩ := hSay.read_cases argument
      · exact .inl ⟨next, hNext, fun rest => by rw [hRun, readInto_cons, hRead]⟩
      · exact .inr ⟨arguments, argument, [], e, rfl, hSay.noneOffends settings.nodup_keys,
          hOffends, fun rest => by rw [hRun, readInto_cons, hRead]⟩
    · exact .inr ⟨before, blamed, after ++ [argument], e, by simp, hBefore, hOffends,
        fun rest => hRun (argument :: rest)⟩

theorem NoneOffends.exists_noted (hNone : NoneOffends arguments) :
    ∃ settings : Partial, Say arguments settings.noted ∧
      ∀ rest, ofArguments (arguments ++ rest) = readInto settings rest := by
  obtain hNoted | ⟨before, argument, after, e, hArguments, -, hOffends, -⟩ :=
    ofArguments_cases arguments
  · exact hNoted
  · exact absurd hOffends (hNone before argument after hArguments e)

theorem Say.ofArguments_eq {known : Partial} (hSay : Say arguments known.noted) :
    ofArguments arguments = readInto known [] := by
  obtain ⟨final, hFinal, hRun⟩ := (hSay.noneOffends known.nodup_keys).exists_noted
  obtain rfl := Partial.eq_of_perm (hFinal.unique hSay)
  have hEnd := hRun []
  rwa [List.append_nil] at hEnd

/-! ## Settings or an error -/

/-- One argument names the records file, at most one gives a time to live, and no other is there. -/
def Accepts (arguments : List String) (settings : Settings) : Prop :=
  Say arguments [.records settings.records] ∧ settings.defaultTtl = standardTtl ∨
    Say arguments [.records settings.records, .ttl settings.defaultTtl]

theorem Accepts.perm {settings : Settings} (hAccepts : Accepts arguments settings)
    (hPerm : arguments.Perm other) : Accepts other settings :=
  hAccepts.imp (fun ⟨hSay, hTtl⟩ => ⟨hSay.perm hPerm, hTtl⟩) fun hSay => hSay.perm hPerm

theorem Accepts.exists_records {settings : Settings} (hAccepts : Accepts arguments settings) :
    ∃ argument ∈ arguments, Means argument (.records settings.records) := by
  obtain ⟨hSay, -⟩ | hSay := hAccepts <;> exact hSay.mem_iff.mp List.mem_cons_self

theorem readInto_nil_eq_ok_iff {final : Partial} {settings : Settings} :
    readInto final [] = .ok settings ↔
      final.noted = [.records settings.records] ∧ settings.defaultTtl = standardTtl ∨
        final.noted = [.records settings.records, .ttl settings.defaultTtl] := by
  obtain ⟨records, ttl⟩ := settings
  obtain ⟨_ | path, _ | value⟩ := final <;>
    simp [readInto, Partial.noted, @eq_comm _ ttl]

theorem readInto_nil_eq_error_iff {final : Partial} :
    readInto final [] = .error e ↔ final.records = none ∧ e = .missingKey "records" := by
  obtain ⟨_ | path, ttl⟩ := final <;> simp [readInto, eq_comm]

theorem ofArguments_eq_ok_iff {settings : Settings} :
    ofArguments arguments = .ok settings ↔ Accepts arguments settings := by
  constructor
  · intro hOk
    obtain ⟨final, hSay, -⟩ | ⟨_, _, _, e, -, -, -, hRun⟩ := ofArguments_cases arguments
    · rw [hSay.ofArguments_eq, readInto_nil_eq_ok_iff] at hOk
      obtain ⟨hNoted, hTtl⟩ | hNoted := hOk
      · exact .inl ⟨hNoted ▸ hSay, hTtl⟩
      · exact .inr (hNoted ▸ hSay)
    · rw [← List.append_nil arguments, hRun] at hOk
      cases hOk
  · rintro (⟨hSay, hTtl⟩ | hSay)
    · have hNoted : Say arguments (Partial.noted ⟨some settings.records, none⟩) := hSay
      exact hNoted.ofArguments_eq.trans (readInto_nil_eq_ok_iff.mpr (.inl ⟨rfl, hTtl⟩))
    · have hNoted :
          Say arguments (Partial.noted ⟨some settings.records, some settings.defaultTtl⟩) := hSay
      exact hNoted.ofArguments_eq.trans (readInto_nil_eq_ok_iff.mpr (.inr rfl))

theorem Say.records_eq_none_iff {known : Partial} (hSay : Say arguments known.noted) :
    known.records = none ↔ ∀ argument ∈ arguments, ∀ path, ¬Means argument (.records path) := by
  constructor
  · intro hNone argument hMem path hMeans
    have hNoted := hSay.mem_iff.mpr ⟨argument, hMem, hMeans⟩
    rw [Partial.records_mem_noted_iff, hNone] at hNoted
    cases hNoted
  · intro hNone
    refine Option.eq_none_iff_forall_ne_some.mpr fun path hPath => ?_
    obtain ⟨argument, hMem, hMeans⟩ := hSay.mem_iff.mp (Partial.records_mem_noted_iff.mpr hPath)
    exact hNone argument hMem path hMeans

theorem ofArguments_eq_error_iff : ofArguments arguments = .error e ↔ IsBlamed arguments e := by
  constructor
  · intro hError
    obtain ⟨final, hSay, -⟩ | ⟨before, argument, after, blamed, hArguments, hBefore, hOffends,
      hRun⟩ := ofArguments_cases arguments
    · rw [hSay.ofArguments_eq, readInto_nil_eq_error_iff] at hError
      obtain ⟨hNone, rfl⟩ := hError
      exact .missingKey (hSay.noneOffends final.nodup_keys) (hSay.records_eq_none_iff.mp hNone)
    · rw [← List.append_nil arguments, hRun] at hError
      cases hError
      exact .argument hArguments hBefore hOffends
  · rintro (⟨rfl, hBefore, hOffends⟩ | ⟨hNone, hRecords⟩)
    · obtain ⟨known, hSay, hRun⟩ := hBefore.exists_noted
      rw [hRun, readInto_cons, hOffends.read_eq hSay]
    · obtain ⟨known, hSay, -⟩ := hNone.exists_noted
      rw [hSay.ofArguments_eq, readInto_nil_eq_error_iff, hSay.records_eq_none_iff]
      exact ⟨hRecords, rfl⟩

structure ReadsArguments (arguments : List String) : Prop where
  ok_iff : ∀ settings, ofArguments arguments = .ok settings ↔ Accepts arguments settings
  records_trimmed : ∀ settings, ofArguments arguments = .ok settings →
    settings.records ≠ "" ∧ IsTrimmed settings.records.toList
  perm : ∀ other, arguments.Perm other → ∀ settings,
    ofArguments other = .ok settings ↔ ofArguments arguments = .ok settings
  error_iff : ∀ e, ofArguments arguments = .error e ↔ IsBlamed arguments e

/--
The settings are read exactly from arguments that name one records file and at most one time
to live, in any order, and any other arguments give the error of the first that offends, or
of the missing key.
-/
theorem settings_read_in_any_order (arguments : List String) : ReadsArguments arguments where
  ok_iff _ := ofArguments_eq_ok_iff
  records_trimmed settings hOk := by
    obtain ⟨argument, -, ⟨hText⟩⟩ := (ofArguments_eq_ok_iff.mp hOk).exists_records
    exact ⟨fun hEmpty => hText.value_ne_nil (hEmpty ▸ rfl), hText.value_trimmed⟩
  perm other hPerm settings := by
    rw [ofArguments_eq_ok_iff, ofArguments_eq_ok_iff]
    exact ⟨fun hOther => hOther.perm hPerm.symm, fun hAccepts => hAccepts.perm hPerm⟩
  error_iff _ := ofArguments_eq_error_iff

example : ofArguments ["ttl 60", "ttl +", "records"] = .error (.invalidTtl .notNumber) := rfl

end ZoneStore.Settings
