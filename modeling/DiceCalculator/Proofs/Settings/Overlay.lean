import DiceCalculator.Settings
import Mathlib.Logic.Function.Basic

/-!
# Settings laid over the defaults

A settings file that is empty, or a mapping, replaces the defaults that it gives and leaves the
others. A key that is no setting is refused, and so is a colour policy that there is not, any other
document, and a file that cannot be read. There is one gap: a document that counts as missing is
taken for an empty one, even if it is a truth value, a number, an empty text or an empty sequence.
-/
namespace DiceCalculator.Settings

open Yaml (Value)

def names : List String := default.toList.map Prod.fst

def IsSetting (key : Value) : Prop := ∃ name ∈ names, key = .text name

/-- What entries give under a name. If there are several, the last one counts. -/
def given (name : String) : List (Value × Value) → Option Value
  | [] => none
  | (key, value) :: entries =>
    (given name entries).or
      (match key with
      | .text text => if text = name then some value else none
      | _ => none)

/-- Each setting has the value that entries give it, or else the one that it had. -/
def overlaid (s : Settings) (entries : List (Value × Value)) : List (String × Value) :=
  s.toList.map fun (name, value) => (name, (given name entries).getD value)

private theorem toList_injective : Function.Injective toList := by
  intro s s' h
  obtain ⟨colors, json, barWidth, logLevel⟩ := s
  simp only [toList, List.cons.injEq, Prod.mk.injEq, true_and, and_true] at h
  obtain ⟨rfl, rfl, rfl, rfl⟩ := h
  rfl

private theorem overlaid_nil (s : Settings) : s.overlaid [] = s.toList := by
  simp [overlaid, given]

/-! ## Entries one after the other -/

private theorem set?_of_isSetting {key : Value} (h : IsSetting key) (s : Settings) (value : Value) :
    ∃ s', s.set? key value = some s' ∧ s'.toList = s.overlaid [(key, value)] := by
  obtain ⟨name, hname, rfl⟩ := h
  have hcases : name = "colors" ∨ name = "json" ∨ name = "bar_width" ∨ name = "log_level" := by
    simpa [names, toList] using hname
  obtain rfl | rfl | rfl | rfl := hcases
  all_goals exact ⟨_, rfl, rfl⟩

private theorem set?_of_not_isSetting {key : Value} (h : ¬ IsSetting key) (s : Settings)
    (value : Value) : s.set? key value = none := by
  unfold set?
  split
  case h_5 => rfl
  all_goals exact absurd ⟨_, by decide, rfl⟩ h

private theorem overlaid_cons {s s' : Settings} {key value : Value}
    (h : s'.toList = s.overlaid [(key, value)]) (entries : List (Value × Value)) :
    s'.overlaid entries = s.overlaid ((key, value) :: entries) := by
  rw [overlaid, h, overlaid, List.map_map]
  refine List.map_congr_left fun setting _ => ?_
  simp only [Function.comp_apply, given, Option.none_or]
  cases given setting.1 entries <;> rfl

/-- Entries are accepted if all their keys are settings, and then they are laid over. -/
theorem override_eq_ok_iff (file : String) {s s' : Settings} {entries : List (Value × Value)} :
    override file s entries = .ok s' ↔
      (∀ entry ∈ entries, IsSetting entry.1) ∧ s'.toList = s.overlaid entries := by
  induction entries generalizing s with
  | nil =>
      rw [override, overlaid_nil, toList_injective.eq_iff, Except.ok.injEq]
      simp [eq_comm]
  | cons entry entries ih =>
      obtain ⟨key, value⟩ := entry
      rw [override, List.forall_mem_cons]
      by_cases hkey : IsSetting key
      · obtain ⟨next, hset, hnext⟩ := set?_of_isSetting hkey s value
        simp only [hset, ih, overlaid_cons hnext, hkey, true_and]
      · simp only [set?_of_not_isSetting hkey, hkey, false_and, reduceCtorEq]

/-! ## Documents -/

theorem hasColorPolicy_iff (s : Settings) :
    s.hasColorPolicy = true ↔ ∃ policy ∈ colorPolicies, s.colors = .text policy := by
  unfold hasColorPolicy
  split
  next policy hcolors => simp [hcolors]
  next hother =>
    simp only [Bool.false_eq_true, false_iff]
    rintro ⟨policy, _, hcolors⟩
    exact hother policy hcolors

/-- Entries that give these settings: all keys are settings, and with the values of the entries in
the place of the defaults there is a colour policy. -/
def GivenBy (s : Settings) (entries : List (Value × Value)) : Prop :=
  (∀ entry ∈ entries, IsSetting entry.1) ∧ s.toList = default.overlaid entries ∧
    ∃ policy ∈ colorPolicies, s.colors = .text policy

private theorem givenBy_nil {s : Settings} : s.GivenBy [] ↔ s = default := by
  rw [GivenBy, overlaid_nil, toList_injective.eq_iff]
  constructor
  · exact fun h => h.2.1
  · rintro rfl
    exact ⟨by simp, rfl, "auto", by decide, rfl⟩

/-- The document is empty, or a mapping, and its entries give these settings. -/
def Gives (document : Value) (s : Settings) : Prop :=
  document = .null ∧ s.GivenBy [] ∨ ∃ entries, document = .mapping entries ∧ s.GivenBy entries

/-- The document counts as missing although it is neither empty nor a mapping. -/
def IsStray (document : Value) : Prop :=
  document.isFalsy = true ∧ document ≠ .null ∧ ∀ entries, document ≠ .mapping entries

def ofEntries (file : String) (entries : List (Value × Value)) :
    Except SettingsError Settings := do
  let s ← override file default entries
  if s.hasColorPolicy then pure s else throw (.badColors s.colors)

section Document

variable (file : String) {document : Value} {entries : List (Value × Value)} {s : Settings}

private theorem ofEntries_eq_ok_iff : ofEntries file entries = .ok s ↔ s.GivenBy entries := by
  rw [GivenBy, ← and_assoc, ← override_eq_ok_iff file, ← hasColorPolicy_iff, ofEntries]
  cases override file default entries with
  | error error => simp [bind, Except.bind]
  | ok next =>
      change (if next.hasColorPolicy then Except.ok next else _) = _ ↔ _
      rw [Except.ok.injEq]
      split
      next hcolors =>
        rw [Except.ok.injEq]
        exact ⟨fun heq => ⟨heq, heq ▸ hcolors⟩, And.left⟩
      next hcolors =>
        refine iff_of_false (by simp [throw, throwThe, MonadExceptOf.throw]) ?_
        rintro ⟨rfl, hpolicy⟩
        exact hcolors hpolicy

private theorem ofDocument_of_isFalsy (h : document.isFalsy = true) :
    ofDocument file document = ofEntries file [] := by
  simp only [ofDocument, if_pos h]
  rfl

private theorem ofDocument_mapping :
    ofDocument file (.mapping entries) = ofEntries file entries := by
  cases entries with
  | nil => exact ofDocument_of_isFalsy file rfl
  | cons entry entries => rfl

/-- The settings of a document are those that it gives, or the defaults if it is stray. -/
theorem ofDocument_eq_ok_iff :
    ofDocument file document = .ok s ↔ Gives document s ∨ IsStray document ∧ s = default := by
  by_cases hmapping : ∃ entries, document = .mapping entries
  · obtain ⟨entries, rfl⟩ := hmapping
    simp [ofDocument_mapping, ofEntries_eq_ok_iff, Gives, IsStray]
  rw [not_exists] at hmapping
  by_cases hfalsy : document.isFalsy = true
  · rw [ofDocument_of_isFalsy file hfalsy, ofEntries_eq_ok_iff, givenBy_nil]
    by_cases hnull : document = .null
    · simp [Gives, IsStray, hnull, givenBy_nil]
    · simp [Gives, IsStray, hnull, hmapping, hfalsy]
  · have hnull : document ≠ .null := by
      rintro rfl
      exact hfalsy rfl
    have hrefused : ofDocument file document = .error (.notMapping file) := by
      rw [ofDocument, if_neg hfalsy]
      · rfl
      · exact hmapping
    simp [hrefused, Gives, IsStray, hnull, hmapping, hfalsy]

end Document

/-! ## Files -/

section File

variable {read : String → Except OpenError String} {path : Option String} {file content : String}

private theorem load_of_missing (h : read standardPath = .error .missing) :
    load read none = .ok default := by
  simp only [load, chosenPath, h]

private theorem load_eq_ofFile (h : ¬ (path = none ∧ read standardPath = .error .missing)) :
    load read path = ofFile read (path.getD standardPath) := by
  cases path with
  | some file => rfl
  | none =>
      have hthere : chosenPath read none = some standardPath := by
        rw [chosenPath]
        split
        next hmissing => exact absurd ⟨rfl, hmissing⟩ h
        next => rfl
      rw [load, hthere]
      rfl

private theorem ofFile_of_fault {fault : PathFault} (h : PathFault.of? file = some fault) :
    ofFile read file = .error (.badPath fault) := by
  rw [ofFile, h]
  rfl

private theorem ofFile_of_unreadable {reason : OpenError} (hpath : PathFault.of? file = none)
    (h : read file = .error reason) :
    ofFile read file = .error (.refused (.cannotRead file reason)) := by
  rw [ofFile, hpath, h]
  rfl

private theorem ofFile_of_malformed (hpath : PathFault.of? file = none)
    (h : read file = .ok content) (hparse : Value.parse content = .error .malformed) :
    ofFile read file = .error (.refused (.invalidYaml file)) := by
  rw [ofFile, hpath, h]
  simp only [document, hparse]
  rfl

private theorem ofFile_of_flaw {flaw : Yaml.Flaw} (hpath : PathFault.of? file = none)
    (h : read file = .ok content) (hparse : Value.parse content = .error flaw)
    (hflaw : flaw ≠ .malformed) : ofFile read file = .error (.flawed flaw) := by
  rw [ofFile, hpath, h]
  simp only [document, hparse]
  cases flaw with
  | malformed => exact absurd rfl hflaw
  | _ => rfl

private theorem ofFile_of_document {value : Value} (hpath : PathFault.of? file = none)
    (h : read file = .ok content) (hparse : Value.parse content = .ok value) :
    ofFile read file = (ofDocument file value).mapError .refused := by
  rw [ofFile, hpath, h]
  simp only [document, hparse]
  rfl

end File

/-- The settings that are to be loaded: the defaults if no file is asked for and the standard one is
missing, or else those that the document of the file gives. -/
def Provides (read : String → Except OpenError String) (path : Option String) (s : Settings) :
    Prop :=
  path = none ∧ read standardPath = .error .missing ∧ s = default ∨
    ∃ content document, read (path.getD standardPath) = .ok content ∧
      Value.parse content = .ok document ∧ Gives document s

/-- The settings that are to be loaded are loaded, and where there are none, loading is refused for
a reason. -/
def LoadsOverlay (read : String → Except OpenError String) (path : Option String) : Prop :=
  (∀ s, load read path = .ok s ↔ Provides read path s) ∧
    ((∀ s, ¬ Provides read path s) → ∃ error, load read path = .error (.refused error))

section Loading

variable {read : String → Except OpenError String} {path : Option String}

private theorem loadsOverlay_of_missing (h : read standardPath = .error .missing) :
    LoadsOverlay read none := by
  have hload := load_of_missing h
  refine ⟨fun s => ?_, fun hno => absurd (.inl ⟨rfl, h, rfl⟩) (hno default)⟩
  simp [hload, Provides, h, eq_comm]

private theorem loadsOverlay_of_refused {error : SettingsError}
    (h : load read path = .error (.refused error)) (hno : ∀ s, ¬ Provides read path s) :
    LoadsOverlay read path :=
  ⟨fun s => by simp [h, hno s], fun _ => ⟨error, h⟩⟩

private theorem not_loadsOverlay_of_error {failure : LoadFailure}
    (h : load read path = .error failure) (hfailure : ∀ error, failure ≠ .refused error) :
    ¬ LoadsOverlay read path := by
  rintro ⟨hload, hrefused⟩
  have hno : ∀ s, ¬ Provides read path s := by
    intro s hs
    rw [← hload s, h] at hs
    cases hs
  obtain ⟨error, herror⟩ := hrefused hno
  rw [h] at herror
  exact hfailure error (Except.error.inj herror)

private theorem provides_iff_of_content {content : String}
    (h : read (path.getD standardPath) = .ok content) (s : Settings) :
    Provides read path s ↔ ∃ document, Value.parse content = .ok document ∧ Gives document s := by
  rw [Provides, or_iff_right]
  · simp [h]
  · rintro ⟨rfl, hmissing, -⟩
    rw [Option.getD_none, hmissing] at h
    cases h

private theorem not_provides_of_unreadable
    (hnone : ¬ (path = none ∧ read standardPath = .error .missing)) {reason : OpenError}
    (h : read (path.getD standardPath) = .error reason) (s : Settings) :
    ¬ Provides read path s := by
  rintro (⟨hpath, hmissing, -⟩ | ⟨content, document, hcontent, -⟩)
  · exact hnone ⟨hpath, hmissing⟩
  · rw [h] at hcontent
    cases hcontent

private theorem loadsOverlay_iff_not_isStray {document : Value}
    (hload : load read path = (ofDocument (path.getD standardPath) document).mapError .refused)
    (hprovides : ∀ s, Provides read path s ↔ Gives document s) :
    LoadsOverlay read path ↔ ¬ IsStray document := by
  have hok (s : Settings) : load read path = .ok s ↔
      Gives document s ∨ IsStray document ∧ s = default := by
    rw [hload, ← ofDocument_eq_ok_iff (path.getD standardPath)]
    cases ofDocument (path.getD standardPath) document with
    | error error => exact iff_of_false nofun nofun
    | ok next =>
        change Except.ok next = .ok s ↔ Except.ok next = .ok s
        rw [Except.ok.injEq, Except.ok.injEq]
  constructor
  · rintro ⟨hsame, -⟩ hstray
    have hgives : Gives document default :=
      (hprovides default).mp ((hsame default).mp ((hok default).mpr (.inr ⟨hstray, rfl⟩)))
    obtain ⟨hnull, -⟩ | ⟨entries, hmapping, -⟩ := hgives
    · exact hstray.2.1 hnull
    · exact hstray.2.2 entries hmapping
  · intro hstray
    refine ⟨fun s => by simp [hok, hprovides, hstray], fun hno => ?_⟩
    cases hdocument : ofDocument (path.getD standardPath) document with
    | error error => exact ⟨error, by rw [hload, hdocument]; rfl⟩
    | ok s =>
        have hgives : Gives document s :=
          ((ofDocument_eq_ok_iff _).mp hdocument).resolve_right fun h => hstray h.1
        exact absurd ((hprovides s).mpr hgives) (hno s)

theorem loadsOverlay_iff_of_content {content : String}
    (hpath : PathFault.of? (path.getD standardPath) = none)
    (hread : read (path.getD standardPath) = .ok content)
    (hload : load read path = ofFile read (path.getD standardPath)) :
    LoadsOverlay read path ↔
      match Value.parse content with
      | .ok document => ¬ IsStray document
      | .error flaw => flaw = .malformed := by
  have hprovides := provides_iff_of_content hread
  cases hparse : Value.parse content with
  | ok document =>
      rw [ofFile_of_document hpath hread hparse] at hload
      exact loadsOverlay_iff_not_isStray hload (by simpa [hparse] using hprovides)
  | error flaw =>
      have hno (s : Settings) : ¬ Provides read path s := by simp [hprovides, hparse]
      by_cases hflaw : flaw = .malformed
      · subst hflaw
        rw [ofFile_of_malformed hpath hread hparse] at hload
        exact iff_of_true (loadsOverlay_of_refused hload hno) rfl
      · rw [ofFile_of_flaw hpath hread hparse hflaw] at hload
        exact iff_of_false (not_loadsOverlay_of_error hload (by simp)) hflaw

end Loading

/-- Settings are loaded exactly as the file gives them, and everything else is refused for a reason,
if and only if the path is one that a file can have, the text of the file has a document or breaks
the rules of documents, and the document is not a stray one. -/
theorem load_overlays_iff (read : String → Except OpenError String) (path : Option String) :
    LoadsOverlay read path ↔ PathFault.of? (path.getD standardPath) = none ∧
      ∀ content, read (path.getD standardPath) = .ok content →
        match Value.parse content with
        | .ok document => ¬ IsStray document
        | .error flaw => flaw = .malformed := by
  by_cases hnone : path = none ∧ read standardPath = .error .missing
  · obtain ⟨rfl, hmissing⟩ := hnone
    exact iff_of_true (loadsOverlay_of_missing hmissing) ⟨by decide, by simp [hmissing]⟩
  have hload : load read path = ofFile read (path.getD standardPath) := load_eq_ofFile hnone
  cases hpath : PathFault.of? (path.getD standardPath) with
  | some fault =>
      rw [ofFile_of_fault hpath] at hload
      exact iff_of_false (not_loadsOverlay_of_error hload (by simp)) (by simp)
  | none =>
      rw [eq_self, true_and]
      cases hread : read (path.getD standardPath) with
      | error reason =>
          rw [ofFile_of_unreadable hpath hread] at hload
          have hno := not_provides_of_unreadable hnone hread
          exact iff_of_true (loadsOverlay_of_refused hload hno) (by simp)
      | ok content =>
          rw [loadsOverlay_iff_of_content hpath hread hload]
          simp only [Except.ok.injEq, forall_eq']

private theorem eq_mapping_of_text {name text : String} {read : Except Yaml.Flaw Value}
    (h : (match read with
      | .ok (.mapping [(.text key, .text value)]) => key == name && value == text
      | _ => false) = true) : read = .ok (.mapping [(.text name, .text text)]) := by
  split at h
  · simp only [Bool.and_eq_true, beq_iff_eq] at h
    rw [h.1, h.2]
  · cases h

theorem load_overlays_of_one_setting :
    let read : String → Except OpenError String := fun file =>
      if file = standardPath then .ok "[]\n"
      else if file = "a.yaml" then .ok "colors: always\n" else .error .missing
    let s : Settings := { default with colors := .text "always" }
    read "a.yaml" = .ok "colors: always\n" ∧
      Value.parse "colors: always\n" = .ok (.mapping [(.text "colors", .text "always")]) ∧
      LoadsOverlay read (some "a.yaml") ∧ load read (some "a.yaml") = .ok s := by
  intro read s
  have hread : read "a.yaml" = .ok "colors: always\n" := rfl
  have hparse : Value.parse "colors: always\n" =
      .ok (.mapping [(.text "colors", .text "always")]) := eq_mapping_of_text (by decide +kernel)
  have hload : LoadsOverlay read (some "a.yaml") := by
    refine (load_overlays_iff read (some "a.yaml")).mpr ⟨by decide, fun content hcontent => ?_⟩
    obtain rfl := Except.ok.inj (hread.symm.trans hcontent)
    rw [hparse]
    exact fun hstray => hstray.2.2 _ rfl
  refine ⟨hread, hparse, hload, (hload.1 s).mpr (.inr ⟨_, _, hread, hparse, .inr ⟨_, rfl, ?_⟩⟩)⟩
  exact ⟨by simp [IsSetting, names, toList], rfl, "always", by decide, rfl⟩

private theorem eq_sequence_nil {read : Except Yaml.Flaw Value}
    (h : (match read with
      | .ok (.sequence []) => true
      | _ => false) = true) : read = .ok (.sequence []) := by
  split at h
  · rfl
  · cases h

/-- An empty sequence is no mapping, and yet it is taken for an empty file. -/
theorem load_accepts_empty_sequence :
    let read : String → Except OpenError String := fun file =>
      if file = standardPath then .ok "[]\n" else .error .missing
    read standardPath = .ok "[]\n" ∧ Value.parse "[]\n" = .ok (.sequence []) ∧
      load read none = .ok default ∧ ¬ LoadsOverlay read none := by
  intro read
  have hread : read standardPath = .ok "[]\n" := rfl
  have hparse : Value.parse "[]\n" = .ok (.sequence []) :=
    eq_sequence_nil (by decide +kernel)
  have hstray : IsStray (.sequence []) := ⟨rfl, by simp, by simp⟩
  have hload : load read none = (ofDocument standardPath (.sequence [])).mapError .refused := by
    rw [load_eq_ofFile (by simp [hread])]
    exact ofFile_of_document (by decide) hread hparse
  have hprovides : ∀ s, Provides read none s ↔ Gives (.sequence []) s := by
    simpa [hparse] using provides_iff_of_content (show read (none.getD _) = _ from hread)
  refine ⟨hread, hparse, ?_, fun h => (loadsOverlay_iff_not_isStray hload hprovides).mp h hstray⟩
  rw [hload, (ofDocument_eq_ok_iff _).mpr (.inr ⟨hstray, rfl⟩)]
  rfl

end DiceCalculator.Settings
