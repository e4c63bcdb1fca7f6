import Trakrai.Lib.Numeral
import Trakrai.Storage.PackageArtifacts

namespace Trakrai.Storage
open List Lib Backend

def servicePrefix (service : String) : String := packageStoragePrefix ++ "/" ++ service ++ "/"

structure PackageKey (service version platform fileName key : String) : Prop where
  split : jsSplit '/' key = [packageStoragePrefix, service, version, platform, fileName]
  semver : isSemver version = true
  platform_ne : platform ≠ ""
  fileName_ne : fileName ≠ ""

def AvailablePackageArtifact.key (artifact : AvailablePackageArtifact) : String :=
  packageStoragePrefix ++ "/" ++ artifact.remotePath

def Bucket.Newest (bucket : Bucket) (service : String) (object : StorageObjectSummary) : Prop :=
  ∃ version platform fileName, PackageKey service version platform fileName object.key ∧
    ∀ other ∈ bucket.objects, ∀ version' fileName', PackageKey service version' platform fileName' other.key →
      (compare (versionParts version') (versionParts version)).isLE = true

structure Offered (collation : Collation) (bucket : Bucket) (service : String)
    (artifacts : List AvailablePackageArtifact) : Prop where
  newest : ∀ object ∈ bucket.objects, bucket.Newest service object → ∃ artifact ∈ artifacts, artifact.key = object.key
  formed : ∀ artifact ∈ artifacts, (∃ object ∈ bucket.objects, object.key = artifact.key) ∧
    artifact.serviceName = service ∧
    PackageKey service artifact.version artifact.platform artifact.fileName artifact.key
  ordered : artifacts.Pairwise fun a b => (collation.releaseOrder a b).isLE = true

def listed (providerName : StorageProviderName) (bucket : Bucket) (service : String) : List AvailablePackageArtifact :=
  (listObjects bucket (servicePrefix service) defaultListLimit).filterMap (parsePackageArtifact providerName)

/-- The newest artifacts are among the first keys of the service. None of these lacks only a platform or a file name,
and the comparison takes every two of them in their order. -/
structure Listable (collation : Collation) (providerName : StorageProviderName) (bucket : Bucket) (service : String) :
    Prop where
  early : ∀ object ∈ bucket.objects, bucket.Newest service object →
    ((bucket.under (servicePrefix service)).filter (·.key < object.key)).length < defaultListLimit
  named : ∀ object ∈ (bucket.under (servicePrefix service)).take defaultListLimit, ∀ version platform fileName,
    jsSplit '/' object.key = [packageStoragePrefix, service, version, platform, fileName] → isSemver version = true →
      platform ≠ "" ∧ fileName ≠ ""
  comparable : (listed providerName bucket service).Pairwise fun a b =>
    if (collation.compareArtifacts a b).isLE then (collation.releaseOrder a b).isLE = true
    else (collation.releaseOrder b a).isLE = true

section
variable {collation : Collation} {providerName : StorageProviderName} {bucket : Bucket} {service serviceName : String}
  {object : StorageObjectSummary} {artifact : AvailablePackageArtifact} {artifacts : List AvailablePackageArtifact}

theorem isPrefixOf_iff {start text : String} :
    start.toList.isPrefixOf text.toList = true ↔ ∃ rest, text = start ++ rest := by
  rw [List.isPrefixOf_iff_prefix]
  constructor
  · rintro ⟨rest, hrest⟩
    refine ⟨String.ofList rest, String.toList_inj.1 ?_⟩
    simp [hrest]
  · rintro ⟨rest, rfl⟩
    simp

theorem drop_length_append (start rest : String) : String.ofList ((start ++ rest).toList.drop start.length) = rest := by
  rw [String.toList_append, ← String.length_toList, drop_left, String.ofList_toList]

theorem split_prefix (rest : String) :
    jsSplit '/' (packageStoragePrefix ++ "/" ++ rest) = packageStoragePrefix :: jsSplit '/' rest := by
  rw [jsSplit_append_slash, jsSplit_of_not_mem (by decide)]
  rfl

theorem split_service (hservice : '/' ∉ service.toList) (rest : String) :
    jsSplit '/' (servicePrefix service ++ rest) = packageStoragePrefix :: service :: jsSplit '/' rest := by
  have hassoc : servicePrefix service ++ rest = packageStoragePrefix ++ "/" ++ (service ++ "/" ++ rest) := by
    simp [servicePrefix, String.append_assoc]
  rw [hassoc, split_prefix, jsSplit_append_slash, jsSplit_of_not_mem hservice]
  rfl

theorem split_of_parse (h : parsePackageArtifact providerName object = some artifact) :
    jsSplit '/' object.key =
        [packageStoragePrefix, artifact.serviceName, artifact.version, artifact.platform, artifact.fileName] ∧
      artifact.key = object.key ∧ artifact.updatedAt = object.updatedAt := by
  simp only [parsePackageArtifact] at h
  split at h
  · rename_i hprefix
    obtain ⟨rest, hrest⟩ := isPrefixOf_iff.1 hprefix
    have hrelative : String.ofList (object.key.toList.drop (packageStoragePrefix ++ "/").length) = rest := by
      rw [hrest, drop_length_append]
    rw [hrelative] at h
    split at h
    · rename_i hsplit
      split at h
      · cases h
        refine ⟨?_, hrest.symm, rfl⟩
        rw [hrest, split_prefix, hsplit]
      · cases h
    · cases h
  · cases h

theorem parse_of_split {version platform fileName : String}
    (h : jsSplit '/' object.key = [packageStoragePrefix, service, version, platform, fileName])
    (hversion : isSemver version = true) : (parsePackageArtifact providerName object).isSome = true := by
  obtain ⟨rest, hrest⟩ : ∃ rest, object.key = packageStoragePrefix ++ "/" ++ rest := by
    refine ⟨jsJoin '/' [service, version, platform, fileName], ?_⟩
    rw [← jsJoin_jsSplit '/' object.key, h]
    apply String.toList_inj.1
    rw [toList_jsJoin_cons_cons]
    simp
  have hsplit : jsSplit '/' rest = [service, version, platform, fileName] := by
    rw [hrest, split_prefix] at h
    exact (List.cons.inj h).2
  have hprefix := isPrefixOf_iff.2 ⟨rest, hrest⟩
  have hrelative : String.ofList (object.key.toList.drop (packageStoragePrefix ++ "/").length) = rest := by
    rw [hrest, drop_length_append]
  simp only [parsePackageArtifact, hprefix, if_true, hrelative, hsplit, hversion, dif_pos, Option.isSome_some]

theorem under_of_split {rest : List String} {next : String}
    (h : jsSplit '/' object.key = packageStoragePrefix :: service :: next :: rest) (hmem : object ∈ bucket.objects) :
    object ∈ bucket.under (servicePrefix service) := by
  rw [Bucket.under, mem_filter]
  refine ⟨hmem, isPrefixOf_iff.2 ⟨jsJoin '/' (next :: rest), ?_⟩⟩
  rw [← jsJoin_jsSplit '/' object.key, h]
  apply String.toList_inj.1
  rw [toList_jsJoin_cons_cons, toList_jsJoin_cons_cons, servicePrefix]
  simp

theorem listPrefix_eq (h : normalizeSegments serviceName "serviceName" = .ok [service]) :
    serviceName ≠ "" ∧ listPrefix (some serviceName) = .ok (servicePrefix service) ∧ service ≠ "" ∧
      '/' ∉ service.toList := by
  obtain ⟨hsegments, -, hproper⟩ := normalizeSegments_ok h
  have hservice := hproper service (mem_singleton_self _)
  have hne : jsTrim serviceName ≠ "" := by
    intro htrim
    have hempty : trimWith (· == '/') "" = "" := by decide +kernel
    rw [normalizeSegments, htrim, if_pos hempty] at h
    cases h
  have hne' : serviceName ≠ "" := by
    rintro rfl
    exact hne (by decide +kernel)
  have hjoin : posixJoin [packageStoragePrefix, service] ++ "/" = servicePrefix service := by
    have hall : ∀ part ∈ [packageStoragePrefix, service], properSegment part ∧ '/' ∉ part.toList := by
      intro part hpart
      rcases mem_cons.1 hpart with rfl | hpart
      · decide
      · exact hproper part hpart
    rw [posixJoin_proper hall]
    apply String.toList_inj.1
    rw [String.toList_append, toList_jsJoin_cons_cons, jsJoin_singleton, servicePrefix]
    simp
  refine ⟨hne', ?_, ?_, hservice.2⟩
  · have hfilter : (some serviceName).filter (jsTrim · ≠ "") = some serviceName := by simp [Option.filter, hne]
    simp only [listPrefix, hfilter, h]
    exact congrArg Except.ok hjoin
  · rintro rfl
    exact absurd hservice.1 (by decide)

theorem listObjects_eq (bucket : Bucket) (service : String) :
    listObjects bucket (servicePrefix service) defaultListLimit =
      (bucket.under (servicePrefix service)).take defaultListLimit := by
  apply filter_eq_self.2
  intro object hobject
  have hunder := mem_of_mem_take hobject
  rw [Bucket.under, mem_filter] at hunder
  obtain ⟨rest, hrest⟩ := isPrefixOf_iff.1 hunder.2
  rw [hrest]
  simp [servicePrefix, packageStoragePrefix]

theorem mem_listed (hservice : '/' ∉ service.toList) (h : artifact ∈ listed providerName bucket service) :
    ∃ object ∈ (bucket.under (servicePrefix service)).take defaultListLimit, artifact.serviceName = service ∧
      jsSplit '/' object.key =
        [packageStoragePrefix, service, artifact.version, artifact.platform, artifact.fileName] ∧
      artifact.key = object.key ∧ artifact.updatedAt = object.updatedAt := by
  rw [listed, listObjects_eq bucket service, mem_filterMap] at h
  obtain ⟨object, hobject, hparse⟩ := h
  obtain ⟨hsplit, hkey, hstamp⟩ := split_of_parse hparse
  have hunder := mem_of_mem_take hobject
  rw [Bucket.under, mem_filter] at hunder
  obtain ⟨rest, hrest⟩ := isPrefixOf_iff.1 hunder.2
  have hname : artifact.serviceName = service := by
    rw [hrest, split_service hservice] at hsplit
    exact (List.cons.inj (List.cons.inj hsplit).2).1.symm
  rw [hname] at hsplit
  exact ⟨object, hobject, hname, hsplit, hkey, hstamp⟩

theorem exists_listed
    (hobject : object ∈ (bucket.under (servicePrefix service)).take defaultListLimit)
    (hsplit : jsSplit '/' object.key = [packageStoragePrefix, service, version, platform, fileName])
    (hversion : isSemver version = true) :
    ∃ artifact ∈ listed providerName bucket service, artifact.key = object.key ∧ artifact.platform = platform ∧
      artifact.fileName = fileName := by
  obtain ⟨artifact, hparse⟩ := Option.isSome_iff_exists.1 (parse_of_split hsplit hversion)
  obtain ⟨hsplit', hkey, -⟩ := split_of_parse hparse
  refine ⟨artifact, ?_, hkey, ?_, ?_⟩
  · rw [listed, listObjects_eq bucket service]
    exact mem_filterMap.2 ⟨object, hobject, hparse⟩
  · simp_all
  · simp_all

theorem accepted_iff (hservice : '/' ∉ service.toList) (hne : service ≠ "")
    (h : artifact ∈ listed providerName bucket service) :
    artifact.accepted = true ↔ artifact.platform ≠ "" ∧ artifact.fileName ≠ "" := by
  obtain ⟨object, hobject, hname, hsplit, hkey, hstamp⟩ := mem_listed hservice h
  have hstamped : artifact.updatedAt ≠ some "" := by
    rw [hstamp]
    exact bucket.stamped object (mem_of_mem_filter (mem_of_mem_take hobject))
  have hremote : artifact.remotePath ≠ "" := by
    intro hempty
    rw [← hkey, AvailablePackageArtifact.key, hempty, split_prefix, jsSplit_of_not_mem (by decide)] at hsplit
    cases hsplit
  rw [AvailablePackageArtifact.accepted, hname]
  simp only [Bool.and_eq_true, bne_iff_ne]
  tauto

theorem accepted_all_iff (hservice : '/' ∉ service.toList) (hne : service ≠ "") :
    (∀ artifact ∈ listed providerName bucket service, artifact.accepted = true) ↔
      ∀ object ∈ (bucket.under (servicePrefix service)).take defaultListLimit, ∀ version platform fileName,
        jsSplit '/' object.key = [packageStoragePrefix, service, version, platform, fileName] →
          isSemver version = true → platform ≠ "" ∧ fileName ≠ "" := by
  constructor
  · intro h object hobject version platform fileName hsplit hversion
    obtain ⟨artifact, hartifact, -, rfl, rfl⟩ := exists_listed hobject hsplit hversion
    exact (accepted_iff hservice hne hartifact).1 (h artifact hartifact)
  · intro h artifact hartifact
    obtain ⟨object, hobject, -, hsplit, -, -⟩ := mem_listed hservice hartifact
    exact (accepted_iff hservice hne hartifact).2 (h object hobject _ _ _ hsplit artifact.semver)

theorem mem_sortArtifacts : artifact ∈ collation.sortArtifacts artifacts ↔ artifact ∈ artifacts :=
  mem_insertionSort _

theorem listAvailable_eq_ok_iff (h : normalizeSegments serviceName "serviceName" = .ok [service]) :
    listAvailable collation providerName bucket (some serviceName) = .ok artifacts ↔
      (∀ artifact ∈ listed providerName bucket service, artifact.accepted = true) ∧
        artifacts = collation.sortArtifacts (listed providerName bucket service) := by
  obtain ⟨hne, hprefix, -, -⟩ := listPrefix_eq h
  have hne' : some serviceName ≠ some "" := fun heq => hne (Option.some.inj heq)
  have hquery : listAvailable collation providerName bucket (some serviceName) =
      if (collation.sortArtifacts (listed providerName bucket service)).all (·.accepted) then
        .ok (collation.sortArtifacts (listed providerName bucket service))
      else .error (.internal "Output validation failed") := by
    rw [listAvailable, if_neg hne', hprefix]
    rfl
  have hall : (collation.sortArtifacts (listed providerName bucket service)).all (·.accepted) = true ↔
      ∀ artifact ∈ listed providerName bucket service, artifact.accepted = true := by
    simp only [all_eq_true, mem_sortArtifacts]
  rw [hquery, ← hall]
  split
  · rename_i haccepted
    rw [Except.ok.injEq, eq_comm, and_iff_right haccepted]
  · rename_i haccepted
    simp [haccepted]

theorem eq_of_key (hobject : object ∈ bucket.objects) (hother : other ∈ bucket.objects)
    (h : object.key = other.key) : object = other := by
  have hnodup : (bucket.objects.map (·.key)).Nodup := by
    rw [List.Nodup, pairwise_map]
    apply bucket.sorted.imp
    intro a b hlt heq
    rw [heq] at hlt
    exact String.lt_irrefl _ hlt
  exact inj_on_of_nodup_map hnodup hobject hother h

theorem newest_listed_iff (hservice : '/' ∉ service.toList) (hobject : object ∈ bucket.objects)
    (hnewest : bucket.Newest service object) :
    (∃ artifact ∈ listed providerName bucket service, artifact.key = object.key) ↔
      ((bucket.under (servicePrefix service)).filter (·.key < object.key)).length < defaultListLimit := by
  obtain ⟨version, platform, fileName, hkey, -⟩ := hnewest
  have hunder := under_of_split hkey.split hobject
  have hsorted : (bucket.under (servicePrefix service)).Pairwise fun a b => a.key < b.key :=
    bucket.sorted.sublist filter_sublist
  have htake : object ∈ (bucket.under (servicePrefix service)).take defaultListLimit ↔
      ((bucket.under (servicePrefix service)).filter (·.key < object.key)).length < defaultListLimit := by
    rw [mem_take_iff (fun _ _ => String.lt_asymm) hsorted]
    exact and_iff_right hunder
  rw [← htake]
  constructor
  · rintro ⟨artifact, hartifact, hsame⟩
    obtain ⟨other, hother, -, -, hkey', -⟩ := mem_listed hservice hartifact
    have hmem : other ∈ bucket.objects := mem_of_mem_filter (mem_of_mem_take hother)
    rw [eq_of_key hobject hmem (hsame.symm.trans hkey')]
    exact hother
  · intro hobject
    obtain ⟨artifact, hartifact, hsame, -, -⟩ := exists_listed hobject hkey.split hkey.semver
    exact ⟨artifact, hartifact, hsame⟩

theorem early_of_offered (h : normalizeSegments serviceName "serviceName" = .ok [service])
    (hanswer : listAvailable collation providerName bucket (some serviceName) = .ok artifacts)
    (hoffered : Offered collation bucket service artifacts) (hobject : object ∈ bucket.objects)
    (hnewest : bucket.Newest service object) :
    ((bucket.under (servicePrefix service)).filter (·.key < object.key)).length < defaultListLimit := by
  obtain ⟨-, -, -, hservice⟩ := listPrefix_eq h
  obtain ⟨-, rfl⟩ := (listAvailable_eq_ok_iff h).1 hanswer
  obtain ⟨artifact, hartifact, hkey⟩ := hoffered.newest object hobject hnewest
  exact (newest_listed_iff hservice hobject hnewest).1 ⟨artifact, mem_sortArtifacts.1 hartifact, hkey⟩

theorem comparable_of_lt
    (h : ∀ artifact ∈ listed providerName bucket service, ∀ part ∈ versionParts artifact.version, part < 2 ^ 53) :
    (listed providerName bucket service).Pairwise fun a b =>
      if (collation.compareArtifacts a b).isLE then (collation.releaseOrder a b).isLE = true
      else (collation.releaseOrder b a).isLE = true := by
  have := compareArtifacts_trans collation
  apply List.Pairwise.imp_of_mem _ (pairwise_of_forall (fun _ _ => trivial))
  intro a b ha hb _
  rw [← compareArtifacts_of_lt (h a ha) (h b hb), ← compareArtifacts_of_lt (h b hb) (h a ha)]
  split
  · rename_i hle
    exact hle
  · rename_i hle
    exact (isLE_total a b).resolve_left hle

end

/-- The answer to a query for a service is as it should be just where the first keys of the service tell enough. -/
theorem newest_offered_iff (collation : Collation) (providerName : StorageProviderName) (bucket : Bucket)
    {serviceName service : String} (h : normalizeSegments serviceName "serviceName" = .ok [service]) :
    (∃ artifacts, listAvailable collation providerName bucket (some serviceName) = .ok artifacts ∧
      Offered collation bucket service artifacts) ↔ Listable collation providerName bucket service := by
  obtain ⟨-, -, hne, hservice⟩ := listPrefix_eq h
  have := compareArtifacts_trans collation
  have hordered : (collation.sortArtifacts (listed providerName bucket service)).Pairwise
      (fun a b => (collation.releaseOrder a b).isLE = true) ↔
      (listed providerName bucket service).Pairwise fun a b =>
        if (collation.compareArtifacts a b).isLE then (collation.releaseOrder a b).isLE = true
        else (collation.releaseOrder b a).isLE = true := pairwise_insertionSort_iff _
  constructor
  · rintro ⟨artifacts, hanswer, hoffered⟩
    have hearly : ∀ object ∈ bucket.objects, bucket.Newest service object →
        ((bucket.under (servicePrefix service)).filter (·.key < object.key)).length < defaultListLimit :=
      fun object hobject hnewest => early_of_offered h hanswer hoffered hobject hnewest
    obtain ⟨haccepted, rfl⟩ := (listAvailable_eq_ok_iff h).1 hanswer
    exact {
      early := hearly
      named := (accepted_all_iff hservice hne).1 haccepted
      comparable := hordered.1 hoffered.ordered }
  · intro hlistable
    refine ⟨_, (listAvailable_eq_ok_iff h).2 ⟨(accepted_all_iff hservice hne).2 hlistable.named, rfl⟩, ?_⟩
    exact {
      newest := by
        intro object hobject hnewest
        obtain ⟨artifact, hartifact, hkey⟩ :=
          (newest_listed_iff hservice hobject hnewest).2 (hlistable.early object hobject hnewest)
        exact ⟨artifact, mem_sortArtifacts.2 hartifact, hkey⟩
      formed := by
        intro artifact hartifact
        obtain ⟨object, hobject, hname, hsplit, hkey, -⟩ := mem_listed hservice (mem_sortArtifacts.1 hartifact)
        obtain ⟨hplatform, hfile⟩ := hlistable.named object hobject _ _ _ hsplit artifact.semver
        rw [← hkey] at hsplit
        exact ⟨⟨object, mem_of_mem_filter (mem_of_mem_take hobject), hkey.symm⟩, hname, hsplit,
          artifact.semver, hplatform, hfile⟩
      ordered := hordered.2 hlistable.comparable }

def plainCollation : Collation := ⟨compare, inferInstance⟩

def releaseKey (version : String) : String := "device-packages/agent/" ++ version ++ "/linux/agent.tar.gz"

def releaseObject (version : String) : StorageObjectSummary := ⟨releaseKey version, none, none⟩

def twoReleases : Bucket where
  objects := ["1.10.0", "1.9.0"].map releaseObject
  sorted := by decide +kernel
  stamped := by decide +kernel

theorem newest_offered_iff_agent : ∃ artifacts,
    listAvailable plainCollation .S3 twoReleases (some "agent") = .ok artifacts ∧
      Offered plainCollation twoReleases "agent" artifacts := by
  have h : normalizeSegments "agent" "serviceName" = .ok ["agent"] := by decide +kernel
  apply (newest_offered_iff plainCollation .S3 twoReleases h).2
  exact {
    early := by
      intro object _ _
      apply lt_of_le_of_lt (length_filter_le ..)
      decide +kernel
    named := by
      intro object hobject version platform fileName hsplit _
      have hall : ∀ object ∈ twoReleases.objects, (jsSplit '/' object.key).drop 3 = ["linux", "agent.tar.gz"] := by
        decide +kernel
      have hnames := hall object (mem_of_mem_filter (mem_of_mem_take hobject))
      rw [hsplit] at hnames
      cases hnames
      exact ⟨by decide, by decide⟩
    comparable := by
      apply comparable_of_lt
      decide +kernel }

def minorRelease (n : Nat) : String := "1." ++ String.ofList (pad 3 n) ++ ".0"

theorem toList_releaseKey (version : String) : (releaseKey version).toList =
      "device-packages/agent/".toList ++ (version.toList ++ "/linux/agent.tar.gz".toList) := by
  unfold releaseKey
  simp only [String.toList_append, append_assoc]

theorem releaseKey_lt (h : version.toList ++ "/linux/agent.tar.gz".toList <
    version'.toList ++ "/linux/agent.tar.gz".toList) : releaseKey version < releaseKey version' := by
  have hlt := (append_lt_append_left_iff "device-packages/agent/".toList).2 h
  rw [← toList_releaseKey, ← toList_releaseKey] at hlt
  exact hlt

theorem minorRelease_lt (h : n < m) (hm : m < 1000) :
    releaseKey (minorRelease n) < releaseKey (minorRelease m) := by
  apply releaseKey_lt
  have hversion : ∀ n, (minorRelease n).toList ++ "/linux/agent.tar.gz".toList =
      "1.".toList ++ (pad 3 n ++ ".0/linux/agent.tar.gz".toList) := by
    intro n
    simp [minorRelease]
  have hpad : pad 3 n < pad 3 m := (pad_lt_iff (h.trans hm) hm).2 h
  have hlength : (pad 3 n).length = (pad 3 m).length := by simp
  rw [hversion, hversion, append_lt_append_left_iff, append_lt_append_iff hlength]
  exact .inl hpad

theorem minorRelease_lt_major (n : Nat) : releaseKey (minorRelease n) < releaseKey "2.0.0" := by
  apply releaseKey_lt
  have hversion : (minorRelease n).toList = '1' :: ("." ++ String.ofList (pad 3 n) ++ ".0").toList := by
    simp [minorRelease]
  have hmajor : "2.0.0".toList = '2' :: ".0.0".toList := by decide
  rw [hversion, hmajor]
  exact cons_lt_cons_iff.2 (.inl (by decide))

def crowdedBucket : Bucket where
  objects := (List.range' 100 500).map (releaseObject ∘ minorRelease) ++ [releaseObject "2.0.0"]
  sorted := by
    rw [pairwise_append, pairwise_map]
    refine ⟨?_, pairwise_singleton .., ?_⟩
    · apply (pairwise_lt_range' 1).imp_of_mem
      intro n m _ hm hlt
      rw [mem_range'_1] at hm
      exact minorRelease_lt hlt (by omega)
    · intro a ha b hb
      obtain ⟨n, -, rfl⟩ := mem_map.1 ha
      rw [mem_singleton.1 hb]
      exact minorRelease_lt_major n
  stamped := by
    intro object hobject
    rw [mem_append, mem_map, mem_singleton] at hobject
    rcases hobject with ⟨n, -, rfl⟩ | rfl
    · exact nofun
    · exact nofun

theorem releaseKey_eq (version : String) :
    releaseKey version = servicePrefix "agent" ++ (version ++ "/" ++ "linux/agent.tar.gz") := by
  have hservice : "device-packages/agent/" = servicePrefix "agent" := by decide +kernel
  have hfile : "/linux/agent.tar.gz" = "/" ++ "linux/agent.tar.gz" := by decide +kernel
  unfold releaseKey
  simp only [hservice, hfile, String.append_assoc]

theorem split_releaseKey {version : String} (h : '/' ∉ version.toList) :
    jsSplit '/' (releaseKey version) = [packageStoragePrefix, "agent", version, "linux", "agent.tar.gz"] := by
  have hfile : jsSplit '/' "linux/agent.tar.gz" = ["linux", "agent.tar.gz"] := by decide +kernel
  rw [releaseKey_eq, split_service (by decide), jsSplit_append_slash, jsSplit_of_not_mem h, hfile]
  rfl

theorem slash_not_mem_minorRelease (n : Nat) : '/' ∉ (minorRelease n).toList := by
  have hpad : '/' ∉ pad 3 n := by
    intro h
    exact absurd (mem_pad h).1 (by decide)
  simp [minorRelease, hpad]

theorem minorRelease_older (n : Nat) : compare (versionParts (minorRelease n)) (versionParts "2.0.0") = .lt := by
  have hsplit : ∃ rest, jsSplit '.' (minorRelease n) = "1" :: rest := by
    have htext : (minorRelease n).toList = "1".toList ++ '.' :: (pad 3 n ++ ".0".toList) := by simp [minorRelease]
    rw [jsSplit, htext, splitOn_append_cons_self]
    exact ⟨_, rfl⟩
  obtain ⟨rest, hrest⟩ := hsplit
  rw [versionParts, hrest]
  rfl

/-- The later release is the newest one, and it is behind the first five hundred keys. -/
theorem later_release_missing :
    ¬ ∃ artifacts, listAvailable plainCollation .S3 crowdedBucket (some "agent") = .ok artifacts ∧
      Offered plainCollation crowdedBucket "agent" artifacts := by
  rintro ⟨artifacts, hanswer, hoffered⟩
  have h : normalizeSegments "agent" "serviceName" = .ok ["agent"] := by decide +kernel
  have hobject : releaseObject "2.0.0" ∈ crowdedBucket.objects := mem_append_right _ (mem_singleton_self _)
  have hnewest : crowdedBucket.Newest "agent" (releaseObject "2.0.0") := by
    refine ⟨"2.0.0", "linux", "agent.tar.gz", ⟨split_releaseKey (by decide), by decide +kernel, by decide, by decide⟩, ?_⟩
    intro other hother version' fileName' hkey
    have hsplit := hkey.split
    rw [crowdedBucket, mem_append, mem_map, mem_singleton] at hother
    rcases hother with ⟨n, -, rfl⟩ | rfl
    · rw [Function.comp_apply, releaseObject, split_releaseKey (slash_not_mem_minorRelease n)] at hsplit
      cases hsplit
      rw [minorRelease_older]
      rfl
    · rw [releaseObject, split_releaseKey (by decide)] at hsplit
      cases hsplit
      decide +kernel
  have hunder : crowdedBucket.under (servicePrefix "agent") = crowdedBucket.objects := by
    apply filter_eq_self.2
    intro object hobject
    apply isPrefixOf_iff.2
    rw [crowdedBucket, mem_append, mem_map, mem_singleton] at hobject
    rcases hobject with ⟨n, -, rfl⟩ | rfl
    · exact ⟨_, releaseKey_eq _⟩
    · exact ⟨_, releaseKey_eq _⟩
  have hearly := early_of_offered h hanswer hoffered hobject hnewest
  have hbefore : ((List.range' 100 500).map (releaseObject ∘ minorRelease)).filter
      (·.key < (releaseObject "2.0.0").key) = (List.range' 100 500).map (releaseObject ∘ minorRelease) := by
    apply filter_eq_self.2
    intro object hobject
    obtain ⟨n, -, rfl⟩ := mem_map.1 hobject
    exact decide_eq_true (minorRelease_lt_major n)
  rw [hunder, crowdedBucket, filter_append, hbefore, length_append, length_map, length_range',
    defaultListLimit] at hearly
  omega

end Trakrai.Storage
