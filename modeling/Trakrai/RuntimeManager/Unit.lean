import Trakrai.Lib.Sections
import Trakrai.RuntimeManager.Persistence

namespace Trakrai.RuntimeManager
open Function List Lib

section
variable (table : GoPrint) (shell : String) (service : ManagedServiceConfig)

def envKeys : List String := (service.environment.map Prod.fst).insertionSort (· ≤ ·)

def envValue (key : String) : String := (service.environment.lookup key).getD ""

def unitDescription : String :=
  if service.description ≠ "" then service.description else service.displayName

def entryLine (key value : String) : String := key ++ "=" ++ value ++ "\n"

def optionalLine (key value : String) : String := if value ≠ "" then entryLine key value else ""

def listLine (key : String) (values : List String) : String :=
  if values ≠ [] then entryLine key (" ".intercalate values) else ""

def renderSystemdUnit : String :=
  "[Unit]\n" ++ entryLine "Description" (unitDescription service) ++
  listLine "After" service.after ++ listLine "Requires" service.requires ++
  "\n[Service]\n" ++ entryLine "Type" "simple" ++
  optionalLine "User" service.user ++ optionalLine "Group" service.group ++
  optionalLine "WorkingDirectory" service.workingDirectory ++
  String.join ((envKeys service).map fun key =>
    entryLine "Environment" (goQuote table (key ++ "=" ++ envValue service key))) ++
  String.join (service.environmentFiles.map (entryLine "EnvironmentFile")) ++
  entryLine "ExecStart" (shell ++ " " ++ service.scriptPath) ++ entryLine "Restart" service.restart ++
  entryLine "RestartSec" (toString service.restartSec) ++
  "\n[Install]\n" ++ entryLine "WantedBy" service.wantedBy

def given (value : String) : List String := if value = "" then [] else [value]

def joined (values : List String) : List String := if values = [] then [] else [" ".intercalate values]

def sortedEnvironment : List (String × String) :=
  (envKeys service).map fun key => (key, envValue service key)

def unitTable : SectionTable :=
  [("Unit", [("Description", [unitDescription service]), ("After", joined service.after),
        ("Requires", joined service.requires)]),
    ("Service", [("Type", ["simple"]), ("User", given service.user), ("Group", given service.group),
        ("WorkingDirectory", given service.workingDirectory),
        ("Environment", (envKeys service).map fun key => goQuote table (key ++ "=" ++ envValue service key)),
        ("EnvironmentFile", service.environmentFiles), ("ExecStart", [shell ++ " " ++ service.scriptPath]),
        ("Restart", [service.restart]), ("RestartSec", [toString service.restartSec])]),
    ("Install", [("WantedBy", [service.wantedBy])])]

/-- An entry of the environment as its quoted text gives it: the name before the first equals sign, and
the value. -/
def assignment (value : String) : Option (String × String) :=
  (unquote value).map fun text =>
    (String.ofList (text.toList.takeWhile (· ≠ '=')),
      String.ofList (text.toList.dropWhile (· ≠ '=')).tail)

/-- The unit file of a definition says what the definition says. -/
structure UnitMeans (read : List Item) : Prop where
  items : read = (unitTable table shell service).items
  sections : sectionNames read = ["Unit", "Service", "Install"]
  execStart : valuesOf "Service" "ExecStart" read = [shell ++ " " ++ service.scriptPath]
  restart : valuesOf "Service" "Restart" read = [service.restart]
  restartSec : valuesOf "Service" "RestartSec" read = [toString service.restartSec]
  user : valuesOf "Service" "User" read = given service.user
  group : valuesOf "Service" "Group" read = given service.group
  workingDirectory : valuesOf "Service" "WorkingDirectory" read = given service.workingDirectory
  environmentFiles : valuesOf "Service" "EnvironmentFile" read = service.environmentFiles
  environment : (valuesOf "Service" "Environment" read).map assignment = (sortedEnvironment service).map some
  entries : (sortedEnvironment service).Perm service.environment

def rawTexts : List (String × String) :=
  [("Description", unitDescription service), ("After", " ".intercalate service.after),
    ("Requires", " ".intercalate service.requires), ("User", service.user), ("Group", service.group),
    ("WorkingDirectory", service.workingDirectory)] ++
  service.environmentFiles.map (fun path => ("EnvironmentFile", path)) ++
  [("ExecStart", shell ++ " " ++ service.scriptPath), ("Restart", service.restart),
    ("WantedBy", service.wantedBy)]

def looseTexts : List String :=
  [unitDescription service, service.workingDirectory, shell ++ " " ++ service.scriptPath] ++
    service.environmentFiles

structure UnitSafe (format : LineSyntax) : Prop where
  one_line : ∀ text ∈ rawTexts shell service, ∀ c ∈ text.2.toList, format.ends c = false
  complete : ∀ text ∈ rawTexts shell service,
    format.continues (text.1.toList ++ '=' :: text.2.toList) = false
  bare : ∀ text ∈ looseTexts shell service, trimWith isBlank text = text
  names : ∀ entry ∈ service.environment, '=' ∉ entry.1.toList

end

section
variable {table : GoPrint} {shell : String} {service : ManagedServiceConfig}

def Writes (text : String) (lines : List Line) : Prop := text.toList = render lines

theorem Writes.append (h : Writes text lines) (h' : Writes more others) :
    Writes (text ++ more) (lines ++ others) := by
  rw [Writes, String.toList_append, h, h', render_append]

theorem writes_entryLine (key value : String) : Writes (entryLine key value) ([value].map (.entry key)) := by
  simp [Writes, entryLine, render, Line.text]

theorem writes_optionalLine (key value : String) :
    Writes (optionalLine key value) ((given value).map (.entry key)) := by
  rw [optionalLine, given]
  by_cases h : value = ""
  · rw [if_neg (not_not.2 h), if_pos h]
    rfl
  · rw [if_pos h, if_neg h]
    exact writes_entryLine key value

theorem writes_listLine (key : String) (values : List String) :
    Writes (listLine key values) ((joined values).map (.entry key)) := by
  rw [listLine, joined]
  by_cases h : values = []
  · rw [if_neg (not_not.2 h), if_pos h]
    rfl
  · rw [if_pos h, if_neg h]
    exact writes_entryLine key _

theorem writes_join (key : String) (values : List String) :
    Writes (String.join (values.map (entryLine key))) (values.map (.entry key)) := by
  induction values with
  | nil => rfl
  | cons value values ih =>
    have hvalue := writes_entryLine key value
    rw [Writes] at hvalue ih ⊢
    rw [map_cons, String.toList_join, flatMap_cons, ← String.toList_join, ih, hvalue,
      ← render_append]
    rfl

section
variable (table : GoPrint)

theorem writes_environment (service : ManagedServiceConfig) :
    Writes (String.join ((envKeys service).map fun key =>
        entryLine "Environment" (goQuote table (key ++ "=" ++ envValue service key))))
      (((envKeys service).map fun key =>
        goQuote table (key ++ "=" ++ envValue service key)).map (.entry "Environment")) := by
  have hmap := writes_join "Environment"
    ((envKeys service).map fun key => goQuote table (key ++ "=" ++ envValue service key))
  rw [map_map] at hmap
  exact hmap

section
variable (shell : String)

theorem writes_renderSystemdUnit (service : ManagedServiceConfig) :
    Writes (renderSystemdUnit table shell service) (unitTable table shell service).lines := by
  have hunit : Writes "[Unit]\n" [.header "Unit"] := rfl
  have hservice : Writes "\n[Service]\n" [.blank, .header "Service"] := rfl
  have hinstall : Writes "\n[Install]\n" [.blank, .header "Install"] := rfl
  have hdescription := writes_entryLine "Description" (unitDescription service)
  have hbody := (((((hunit.append hdescription).append (writes_listLine "After" service.after)).append
    (writes_listLine "Requires" service.requires)).append hservice).append
    (writes_entryLine "Type" "simple")).append (writes_optionalLine "User" service.user)
  have hlists := (((hbody.append (writes_optionalLine "Group" service.group)).append
    (writes_optionalLine "WorkingDirectory" service.workingDirectory)).append
    (writes_environment table service)).append (writes_join "EnvironmentFile" service.environmentFiles)
  have hwhole := ((((hlists.append (writes_entryLine "ExecStart" (shell ++ " " ++ service.scriptPath))).append
    (writes_entryLine "Restart" service.restart)).append
    (writes_entryLine "RestartSec" (toString service.restartSec))).append hinstall).append
    (writes_entryLine "WantedBy" service.wantedBy)
  refine Eq.trans hwhole (congrArg render ?_)
  simp only [unitTable, SectionTable.lines, SectionTable.sectionLines, flatMap_cons, flatMap_nil,
    isEmpty_cons, isEmpty_nil, append_assoc, cons_append, nil_append, map_cons,
    map_nil, append_nil, if_true, Bool.false_eq_true, if_false]

theorem unitTable_plain (service : ManagedServiceConfig) :
    (unitTable table shell service).Plain where
  names := by
    simp only [unitTable, forall_mem_cons, not_mem_nil, false_implies, implies_true, and_true]
    decide
  keys := by
    simp only [unitTable, forall_mem_cons, not_mem_nil, false_implies, implies_true, and_true]
    decide

theorem unitTable_sections (service : ManagedServiceConfig) :
    sectionNames (unitTable table shell service).items = ["Unit", "Service", "Install"] := by
  rw [SectionTable.sectionNames_items]
  rfl

def serviceEntries (service : ManagedServiceConfig) :
    List (String × List String) :=
  [("Type", ["simple"]), ("User", given service.user), ("Group", given service.group),
    ("WorkingDirectory", given service.workingDirectory),
    ("Environment", (envKeys service).map fun key => goQuote table (key ++ "=" ++ envValue service key)),
    ("EnvironmentFile", service.environmentFiles), ("ExecStart", [shell ++ " " ++ service.scriptPath]),
    ("Restart", [service.restart]), ("RestartSec", [toString service.restartSec])]

theorem serviceEntries_keys (service : ManagedServiceConfig) :
    ((serviceEntries table shell service).map Prod.fst).Nodup := by
  simp only [serviceEntries, map_cons, map_nil]
  decide

theorem valuesOf_service (service : ManagedServiceConfig) (i : Nat) (h : (serviceEntries table shell service)[i]? = some (key, values)) :
    valuesOf "Service" key (unitTable table shell service).items = values := by
  have hmem := List.mem_of_getElem? h
  have hentries : valuesOf "Service" key (unitTable table shell service).items =
      ((serviceEntries table shell service).filter (·.1 == key)).flatMap Prod.snd := by
    rw [SectionTable.valuesOf_items]
    exact append_nil _
  rw [hentries, filter_key_of_mem (serviceEntries_keys table shell service) hmem rfl, flatMap_cons,
    flatMap_nil, append_nil]

end

theorem assignment_goQuote_iff (key value : String) :
    assignment (goQuote table (key ++ "=" ++ value)) = some (key, value) ↔ '=' ∉ key.toList := by
  have htext : (key ++ "=" ++ value).toList = key.toList ++ '=' :: value.toList := by simp
  rw [assignment, unquote_goQuote, Option.map_some, Option.some.injEq, Prod.mk.injEq, htext]
  constructor
  · intro h hmem
    have hkey := congrArg String.toList h.1
    rw [String.toList_ofList] at hkey
    have hall := all_takeWhile (p := (· ≠ '=')) (l := key.toList ++ '=' :: value.toList)
    rw [hkey, all_eq_true] at hall
    simpa using hall '=' hmem
  · intro h
    have hkey : ∀ c ∈ key.toList, decide (c ≠ '=') = true := fun c hc =>
      decide_eq_true (fun he => h (he ▸ hc))
    rw [takeWhile_append_of_pos hkey, dropWhile_append_of_pos hkey]
    simp

end

theorem mem_envKeys {key : String} : key ∈ envKeys service ↔ ∃ entry ∈ service.environment, entry.1 = key := by
  rw [envKeys, (perm_insertionSort _ _).mem_iff, mem_map]

theorem sortedEnvironment_perm (h : (service.environment.map Prod.fst).Nodup) :
    (sortedEnvironment service).Perm service.environment := by
  have hperm : (envKeys service).Perm (service.environment.map Prod.fst) := perm_insertionSort _ _
  refine (hperm.map _).trans (List.Perm.of_eq ?_)
  rw [map_map]
  conv_rhs => rw [← map_id service.environment]
  apply map_congr_left
  rintro ⟨key, value⟩ hentry
  rw [comp_apply, envValue, lookup_of_mem h hentry]
  rfl

theorem unitMeans_of_items (hnodup : (service.environment.map Prod.fst).Nodup)
    (hnames : ∀ key ∈ envKeys service, '=' ∉ key.toList) {read : List Item}
    (h : read = (unitTable table shell service).items) : UnitMeans table shell service read := by
  subst read
  exact {
    items := rfl
    sections := unitTable_sections table shell service
    execStart := valuesOf_service table shell service 6 rfl
    restart := valuesOf_service table shell service 7 rfl
    restartSec := valuesOf_service table shell service 8 rfl
    user := valuesOf_service table shell service 1 rfl
    group := valuesOf_service table shell service 2 rfl
    workingDirectory := valuesOf_service table shell service 3 rfl
    environmentFiles := valuesOf_service table shell service 5 rfl
    environment := by
      rw [valuesOf_service table shell service 4 rfl, map_map, sortedEnvironment, map_map]
      apply map_congr_left
      intro key hkey
      rw [comp_apply, comp_apply]
      exact (assignment_goQuote_iff table key _).2 (hnames key hkey)
    entries := sortedEnvironment_perm hnodup }

theorem UnitMeans.names {read : List Item} (h : UnitMeans table shell service read) :
    ∀ key ∈ envKeys service, '=' ∉ key.toList := by
  have henvironment := h.environment
  rw [h.items, valuesOf_service table shell service 4 rfl, map_map, sortedEnvironment,
    map_map] at henvironment
  intro key hkey
  have hentry := map_inj_left.1 henvironment key hkey
  rw [comp_apply, comp_apply] at hentry
  exact (assignment_goQuote_iff table key _).1 hentry

variable {format : LineSyntax}

theorem lineValue_iff {key value : String} : format.LineValue key value ↔
    (∀ c ∈ value.toList, format.ends c = false) ∧ trimWith isBlank value = value ∧
      format.continues (key.toList ++ '=' :: value.toList) = false := by
  have hbare : stripped value.toList = value.toList ↔ trimWith isBlank value = value := by
    rw [trimWith, ← stripped]
    constructor
    · intro h
      rw [h, String.ofList_toList]
    · intro h
      exact (String.toList_ofList (l := stripped value.toList)).symm.trans (congrArg String.toList h)
  exact ⟨fun h => ⟨h.one_line, hbare.1 h.bare, h.complete⟩, fun h => ⟨h.1, hbare.2 h.2.1, h.2.2⟩⟩

theorem lineValue_empty (key : String) : format.LineValue key "" :=
  LineSyntax.lineValue_of_ends (forall_mem_nil _) rfl nofun

theorem forall_given {P : String → Prop} (hempty : P "") (value : String) :
    (∀ text ∈ given value, P text) ↔ P value := by
  rw [given]
  split
  · rename_i h
    subst value
    exact iff_of_true (forall_mem_nil _) hempty
  · exact forall_mem_singleton

theorem forall_joined {P : String → Prop} (hempty : P "") (values : List String) :
    (∀ text ∈ joined values, P text) ↔ P (" ".intercalate values) := by
  rw [joined]
  split
  · rename_i h
    subst values
    exact iff_of_true (forall_mem_nil _) hempty
  · exact forall_mem_singleton

theorem lineValue_goQuote (table : GoPrint) (key text : String) : format.LineValue key (goQuote table text) := by
  have hlast : (goQuote table text).toList.getLast? = some '"' := by
    rw [goQuote, String.toList_ofList, ← cons_append, List.getLast?_concat]
  have hhead : (goQuote table text).toList.head? = some '"' := by
    rw [goQuote, String.toList_ofList]
    rfl
  apply LineSyntax.lineValue_of_ends fun c hc => le_of_mem_goQuote hc
  · apply trimWith_of_ends
    · rw [hhead]
      rintro c ⟨⟩
      decide
    · rw [hlast]
      rintro c ⟨⟩
      decide
  · rw [hlast]
    decide

theorem lineValue_toString (key : String) (n : Int) : format.LineValue key (toString n) := by
  have hdigits : ∀ n : Nat, ∀ c ∈ (toString n).toList, c.isDigit = true := by
    intro n c hc
    rw [Nat.toString_eq_repr, Nat.toList_repr] at hc
    exact Nat.isDigit_of_mem_toDigits (by decide) (by decide) hc
  have hchars : ∀ c ∈ (toString n).toList, c.isDigit = true ∨ c = '-' := by
    cases n with
    | ofNat n => exact fun c hc => .inl (hdigits n c hc)
    | negSucc n =>
      intro c hc
      change c ∈ ("-" ++ toString (n + 1)).toList at hc
      rw [String.toList_append, mem_append] at hc
      rcases hc with hc | hc
      · exact .inr (mem_singleton.1 hc)
      · exact .inl (hdigits (n + 1) c hc)
  have hplain : ∀ c ∈ (toString n).toList, 32 < c.toNat ∧ c ≠ '\\' := by
    intro c hc
    rcases hchars c hc with hdigit | rfl
    · simp only [Char.isDigit, ge_iff_le, Bool.and_eq_true, decide_eq_true_eq, UInt32.le_iff_toNat_le] at hdigit
      have hzero : '0'.val.toNat = 48 := rfl
      have hnine : '9'.val.toNat = 57 := rfl
      have hc : c.toNat = c.val.toNat := rfl
      refine ⟨by omega, ?_⟩
      rintro rfl
      exact absurd hdigit (by decide)
    · decide
  have hblank : ∀ c ∈ (toString n).toList, ¬ isBlank c := by
    intro c hc hblank
    have hlt := (hplain c hc).1
    simp only [isBlank, Bool.or_eq_true, beq_iff_eq] at hblank
    rcases hblank with ((rfl | rfl) | rfl) | rfl <;> exact absurd hlt (by decide)
  apply LineSyntax.lineValue_of_ends fun c hc => (hplain c hc).1.le
  · exact trimWith_of_ends (fun c hc => hblank c (List.mem_of_mem_head? hc))
      fun c hc => hblank c (List.mem_of_mem_getLast? hc)
  · intro hlast
    exact (hplain _ (List.mem_of_mem_getLast? hlast)).2 rfl

theorem forall_unitTable_iff : (∀ entry ∈ unitTable table shell service, ∀ key ∈ entry.2, ∀ value ∈ key.2,
      format.LineValue key.1 value) ↔
    ∀ text ∈ rawTexts shell service, format.LineValue text.1 text.2 := by
  have hgiven (key value : String) := forall_given (P := format.LineValue key) (lineValue_empty key) value
  have hjoined (key : String) (values : List String) :=
    forall_joined (P := format.LineValue key) (lineValue_empty key) values
  have henvironment : ∀ value ∈ (envKeys service).map fun key =>
      goQuote table (key ++ "=" ++ envValue service key), format.LineValue "Environment" value :=
    forall_mem_map.2 fun key _ => lineValue_goQuote table _ _
  have htype : format.LineValue "Type" "simple" :=
    LineSyntax.lineValue_of_ends (forall_mem_of_all (by decide)) (by decide) (by decide)
  have hsec : format.LineValue "RestartSec" (toString service.restartSec) := lineValue_toString _ _
  simp only [unitTable, rawTexts, forall_mem_append, forall_mem_cons, forall_mem_map,
    not_mem_nil, false_implies, implies_true, and_true, hgiven, hjoined]
  simp only [forall_mem_map] at henvironment
  simp only [htype, hsec, true_and, and_assoc]
  rw [and_iff_right henvironment]

theorem isGoSpace_of_isBlank (h : isBlank c = true) : isGoSpace c = true := by
  simp only [isBlank, Bool.or_eq_true, beq_iff_eq] at h
  rcases h with ((rfl | rfl) | rfl) | rfl <;> rfl

theorem trimWith_isBlank (h : goTrimSpace text = text) : trimWith isBlank text = text := by
  obtain ⟨hhead, hlast⟩ := ends_of_trimWith h
  exact trimWith_of_ends (fun c hc hblank => hhead c hc (isGoSpace_of_isBlank hblank))
    fun c hc hblank => hlast c hc (isGoSpace_of_isBlank hblank)

/-- Words without blanks at their ends make a text without blanks at its ends. -/
theorem trimWith_intercalate (h : ∀ value ∈ values, value ≠ "" ∧ trimWith isBlank value = value):
    trimWith isBlank (" ".intercalate values) = " ".intercalate values := by
  have hends : (∀ c ∈ (" ".intercalate values).toList.head?, ¬ isBlank c) ∧
      ∀ c ∈ (" ".intercalate values).toList.getLast?, ¬ isBlank c := by
    rw [String.toList_intercalate]
    induction values with
    | nil => exact ⟨nofun, nofun⟩
    | cons value values ih =>
      obtain ⟨⟨hne, htrim⟩, hvalues⟩ := forall_mem_cons.1 h
      obtain ⟨hhead, hlast⟩ := ends_of_trimWith htrim
      have hne : value.toList ≠ [] := fun hnil => hne (String.toList_eq_nil_iff.1 hnil)
      cases values with
      | nil =>
        rw [map_cons, map_nil, intercalate_singleton]
        exact ⟨hhead, hlast⟩
      | cons next values =>
        have hnext : next.toList ≠ [] := fun hnil =>
          (hvalues next mem_cons_self).1 (String.toList_eq_nil_iff.1 hnil)
        obtain ⟨-, hlast'⟩ := ih hvalues
        rw [map_cons, map_cons, intercalate_cons_cons, append_assoc]
        constructor
        · rw [List.head?_append_of_ne_nil _ hne]
          exact hhead
        · have hrest : " ".toList.intercalate (next.toList :: values.map String.toList) ≠ [] := by
            cases values <;> simp [hnext]
          rw [List.getLast?_append_of_ne_nil _ (by simp), List.getLast?_append_of_ne_nil _ hrest]
          exact hlast'
  exact trimWith_of_ends hends.1 hends.2

theorem mem_cleanStringList (h : cleanStringList values = values) :
    ∀ value ∈ values, value ≠ "" ∧ trimWith isBlank value = value := by
  intro value hvalue
  rw [← h, cleanStringList, mem_filter, mem_map] at hvalue
  obtain ⟨⟨raw, -, rfl⟩, hne⟩ := hvalue
  exact ⟨by simpa using hne, trimWith_isBlank (goTrimSpace_idem raw)⟩

theorem rawTexts_bare {cfg : Settings} (h : Normal cfg service)
    (hloose : ∀ text ∈ looseTexts shell service, trimWith isBlank text = text) :
    ∀ text ∈ rawTexts shell service, trimWith isBlank text.2 = text.2 := by
  obtain ⟨-, hgroup, hrestart, -, huser, hwanted⟩ : _ ∧ _ ∧ _ ∧ _ ∧ _ ∧ _ := by
    simpa only [forall_mem_cons, not_mem_nil, false_implies, implies_true, and_true]
      using h.texts
  obtain ⟨hafter, -, hrequires, -⟩ : _ ∧ _ ∧ _ ∧ _ := by
    simpa only [forall_mem_cons, not_mem_nil, false_implies, implies_true, and_true]
      using h.lists
  obtain ⟨hfixed, hfiles⟩ := forall_mem_append.1 hloose
  obtain ⟨hdescription, hdirectory, hexec⟩ : _ ∧ _ ∧ _ := by
    simpa only [forall_mem_cons, not_mem_nil, false_implies, implies_true, and_true] using hfixed
  simp only [rawTexts, forall_mem_append, forall_mem_cons, forall_mem_map, not_mem_nil,
    false_implies, implies_true, and_true]
  exact ⟨⟨⟨hdescription, trimWith_intercalate (mem_cleanStringList hafter),
    trimWith_intercalate (mem_cleanStringList hrequires), trimWith_isBlank huser, trimWith_isBlank hgroup,
    hdirectory⟩, hfiles⟩, hexec, trimWith_isBlank hrestart, trimWith_isBlank hwanted⟩

theorem looseTexts_bare (h : ∀ text ∈ rawTexts shell service, trimWith isBlank text.2 = text.2) :
    ∀ text ∈ looseTexts shell service, trimWith isBlank text = text := by
  simp only [rawTexts, forall_mem_append, forall_mem_cons, forall_mem_map, not_mem_nil,
    false_implies, implies_true, and_true] at h
  obtain ⟨⟨⟨hdescription, -, -, -, -, hdirectory⟩, hfiles⟩, hexec, -⟩ := h
  rw [looseTexts, forall_mem_append]
  refine ⟨?_, hfiles⟩
  simp only [forall_mem_cons, not_mem_nil, false_implies, implies_true, and_true]
  exact ⟨hdescription, hdirectory, hexec⟩

/-- The unit of an accepted definition says what the definition says exactly where every text that stands
in it as it is fits its line. -/
theorem unitMeans_iff {cfg : Settings} {raw : ManagedServiceConfig} (table : GoPrint) (shell : String)
    (format : LineSyntax) (haccepted : normalizeManagedService cfg raw = .ok service) :
    UnitMeans table shell service (format.parse (renderSystemdUnit table shell service).toList) ↔
      UnitSafe shell service format := by
  have hnormal := normal_of_normalize haccepted
  have hparse : format.parse (renderSystemdUnit table shell service).toList =
      (unitTable table shell service).items ↔
        ∀ text ∈ rawTexts shell service, format.LineValue text.1 text.2 := by
    rw [writes_renderSystemdUnit, SectionTable.parse_iff (unitTable_plain table shell service),
      forall_unitTable_iff]
  constructor
  · intro h
    have hfits := hparse.1 h.items
    have hnames := h.names
    exact {
      one_line := fun text ht => (hfits text ht).one_line
      complete := fun text ht => (hfits text ht).complete
      bare := looseTexts_bare fun text ht => (lineValue_iff.1 (hfits text ht)).2.1
      names := fun entry he => hnames entry.1 (mem_envKeys.2 ⟨entry, he, rfl⟩) }
  · intro h
    have hbare := rawTexts_bare hnormal h.bare
    have hnodup : (service.environment.map Prod.fst).Nodup := by
      rw [← hnormal.environment]
      exact nodup_cleanEnvironmentMap _
    apply unitMeans_of_items hnodup
    · intro key hkey
      obtain ⟨entry, he, rfl⟩ := mem_envKeys.1 hkey
      exact h.names entry he
    · exact hparse.2 fun text ht => lineValue_iff.2 ⟨h.one_line text ht, hbare text ht, h.complete text ht⟩

end

def systemdSyntax : LineSyntax where
  ends c := c == '\n' || c == '\r' || c == '\x00'
  continues line := (line.rtakeWhile (· == '\\')).length % 2 == 1
  ends_newline := rfl
  ends_control := by
    intro c hc
    simp only [Bool.or_eq_true, beq_iff_eq] at hc
    rcases hc with (rfl | rfl) | rfl <;> decide
  continues_backslash := by
    intro line h
    rcases eq_nil_or_concat line with rfl | ⟨init, c, rfl⟩
    · exact absurd h (by decide)
    · rw [concat_eq_append] at h ⊢
      rw [List.getLast?_concat]
      by_contra hne
      have hc : c ≠ '\\' := fun he => hne (congrArg some he)
      rw [rtakeWhile_concat_neg _ _ _ (by simpa using hc)] at h
      exact absurd h (by decide)

def gateway : ManagedServiceConfig :=
  { name := "gateway", description := "Gateway", kind := "binary", execStart := ["gateway"], user := "trakrai"
    environment := [("MODE", "a \"b\""), ("HOME", "/trakrai")] }

theorem unitMeans_iff_gateway :
    UnitMeans asciiPrint "/bin/bash" (withDefaults deviceSettings gateway)
      (systemdSyntax.parse
        (renderSystemdUnit asciiPrint "/bin/bash" (withDefaults deviceSettings gateway)).toList) := by
  have haccepted : normalizeManagedService deviceSettings gateway =
      .ok (withDefaults deviceSettings gateway) := by decide +kernel
  have hlines : (rawTexts "/bin/bash" (withDefaults deviceSettings gateway)).all (fun text =>
      text.2.toList.all fun c => systemdSyntax.ends c = false) = true := by decide +kernel
  refine (unitMeans_iff asciiPrint "/bin/bash" systemdSyntax haccepted).2 ⟨?_, ?_, ?_, ?_⟩
  · exact fun text ht => forall_mem_of_all (all_eq_true.1 hlines text ht)
  all_goals decide +kernel

def injecting : ManagedServiceConfig :=
  { name := "job", kind := "binary", execStart := ["job"], user := "root\nExecStartPre=/bin/sh -c id" }

theorem renderSystemdUnit_injecting :
    normalizeManagedService deviceSettings injecting = .ok (withDefaults deviceSettings injecting) ∧
      valuesOf "Service" "ExecStartPre" (systemdSyntax.parse (renderSystemdUnit asciiPrint "/bin/bash"
        (withDefaults deviceSettings injecting)).toList) = ["/bin/sh -c id"] ∧
      ¬ UnitMeans asciiPrint "/bin/bash" (withDefaults deviceSettings injecting)
        (systemdSyntax.parse (renderSystemdUnit asciiPrint "/bin/bash"
          (withDefaults deviceSettings injecting)).toList) := by
  have hread : ["ExecStartPre", "User"].map (fun key => valuesOf "Service" key (systemdSyntax.parse
      (renderSystemdUnit asciiPrint "/bin/bash" (withDefaults deviceSettings injecting)).toList)) =
        [["/bin/sh -c id"], ["root"]] := by decide +kernel
  obtain ⟨hcommand, huser⟩ := List.cons.inj hread
  refine ⟨by decide +kernel, hcommand, fun h => ?_⟩
  have hgiven := h.user.symm.trans (head_eq_of_cons_eq huser)
  exact absurd hgiven (by decide +kernel)

end Trakrai.RuntimeManager
