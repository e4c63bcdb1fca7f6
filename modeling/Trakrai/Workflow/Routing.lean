import Mathlib.Data.List.Sort
import Trakrai.Lib.Except
import Trakrai.Lib.Path

namespace Trakrai.Workflow
open List Lib

/-- `length` of a string of ECMAScript, in UTF-16 code units. -/
def jsLength (s : String) : Nat := (utf16 s).length

/-- The characters after so many UTF-16 code units. -/
def dropUnits : List Char → Nat → List Char
  | chars, 0 => chars
  | [], _ + 1 => []
  | c :: chars, n + 1 => dropUnits chars (n + 1 - jsLength (String.singleton c))

/-- `String.prototype.slice` from a place on. -/
def jsSliceFrom (s : String) (n : Nat) : String := String.ofList (dropUnits s.toList n)

def startsWith (s start : String) : Bool := start.toList.isPrefixOf s.toList

def collapseSlashes : List Char → List Char
  | [] => []
  | c :: chars => if c = '/' ∧ chars.head? = some '/' then collapseSlashes chars else c :: collapseSlashes chars

def normalizePath (path : String) : String :=
  let withLeadingSlash := if startsWith path "/" then path else "/" ++ path
  let collapsedSlashes := collapseSlashes withLeadingSlash.toList
  if 1 < jsLength (String.ofList collapsedSlashes) ∧ collapsedSlashes.getLast? = some '/' then
    String.ofList collapsedSlashes.dropLast
  else String.ofList collapsedSlashes

def joinPaths (base suffix : String) : String :=
  let normalizedBase := normalizePath base
  let normalizedSuffix := normalizePath suffix
  if normalizedSuffix = "/" then normalizedBase
  else if normalizedBase = "/" then normalizedSuffix
  else normalizedBase ++ normalizedSuffix

def matchesHttpPluginPath (pluginPath pathname : String) : Bool :=
  if pluginPath = pathname then true
  else if pluginPath = "/" then startsWith pathname "/"
  else startsWith pathname (pluginPath ++ "/")

def getRemainingHttpPluginPath (pluginPath pathname : String) : String :=
  if pluginPath = pathname then ""
  else if pluginPath = "/" then jsSliceFrom pathname 1
  else jsSliceFrom pathname (jsLength pluginPath + 1)

structure HttpApiPlugin (H : Type) where
  path : String
  handler : H ⊕ List (String × H)
deriving DecidableEq

inductive ApiPlugin (H : Type) where
  | trpc (name : String)
  | http (plugin : HttpApiPlugin H)

structure HttpPluginRoute (H : Type) where
  fullPath : String
  plugin : HttpApiPlugin H
deriving DecidableEq

structure HttpRequestContext where
  path : String
  fullPath : String
  pathname : String
  remainingPath : String

inductive Response (H : Type) where
  | handled (handler : H) (context : HttpRequestContext)
  | methodNotAllowed
  /-- Left to the router of the tRPC plugins. -/
  | trpc

section
variable {H : Type}

def flattenPlugins (plugins : List (ApiPlugin H ⊕ List (ApiPlugin H))) : List (ApiPlugin H) :=
  plugins.flatMap (Sum.elim (fun plugin => [plugin]) id)

def trpcNames (plugins : List (ApiPlugin H)) : List String :=
  plugins.filterMap fun
    | .trpc name => some name
    | .http _ => none

def httpPlugins (plugins : List (ApiPlugin H)) : List (HttpApiPlugin H) :=
  plugins.filterMap fun
    | .trpc _ => none
    | .http plugin => some plugin

def registerRouters : List String → List String → Except String Unit
  | _, [] => .ok ()
  | entries, name :: names =>
    if name ∈ entries then .error ("Duplicate tRPC plugin name '" ++ name ++ "'")
    else registerRouters (entries ++ [name]) names

def registerRoutes (basePath : String) :
    List (HttpPluginRoute H) → List (HttpApiPlugin H) → Except String (List (HttpPluginRoute H))
  | routes, [] => .ok routes
  | routes, plugin :: plugins =>
    let fullPath := joinPaths basePath plugin.path
    if routes.any (·.fullPath == fullPath) then .error ("Duplicate HTTP plugin path '" ++ fullPath ++ "'")
    else registerRoutes basePath (routes ++ [⟨fullPath, plugin⟩]) plugins

/-- The routes of the handler, the longest path first. -/
def createApiHandler (basePath : String) (plugins : List (ApiPlugin H ⊕ List (ApiPlugin H))) :
    Except String (List (HttpPluginRoute H)) := do
  registerRouters [] (trpcNames (flattenPlugins plugins))
  let routes ← registerRoutes basePath [] (httpPlugins (flattenPlugins plugins))
  return routes.insertionSort fun left right => jsLength right.fullPath ≤ jsLength left.fullPath

def matchedRoute (routes : List (HttpPluginRoute H)) (urlPathname : String) : Option (HttpPluginRoute H) :=
  routes.find? fun route => matchesHttpPluginPath route.fullPath (normalizePath urlPathname)

def resolveHttpMethodHandler (toUpperCase : String → String) (plugin : HttpApiPlugin H)
    (requestMethod : String) : Option H :=
  match plugin.handler with
  | .inl handler => some handler
  | .inr handlers => handlers.lookup (toUpperCase requestMethod)

def handle (toUpperCase : String → String) (routes : List (HttpPluginRoute H))
    (requestMethod urlPathname : String) : Response H :=
  match matchedRoute routes urlPathname with
  | none => .trpc
  | some route =>
    match resolveHttpMethodHandler toUpperCase route.plugin requestMethod with
    | none => .methodNotAllowed
    | some handler => .handled handler {
        path := route.plugin.path
        fullPath := route.fullPath
        pathname := normalizePath urlPathname
        remainingPath := getRemainingHttpPluginPath route.fullPath (normalizePath urlPathname) }

end

theorem jsLength_append (s t : String) : jsLength (s ++ t) = jsLength s + jsLength t := by
  simp [jsLength, utf16]

theorem jsLength_pos {s : String} (h : s ≠ "") : 0 < jsLength s := by
  have hne : s.toList ≠ [] := by simpa using h
  obtain ⟨c, chars, hchars⟩ := exists_cons_of_ne_nil hne
  rw [jsLength, utf16, hchars, flatMap_cons, length_append]
  apply Nat.add_pos_left
  split <;> simp

theorem jsLength_slash : jsLength "/" = 1 := by decide

theorem dropUnits_append (before after : String) :
    dropUnits (before ++ after).toList (jsLength before) = after.toList := by
  rw [String.toList_append]
  generalize hchars : before.toList = chars
  induction chars generalizing before with
  | nil =>
    have hempty : before = "" := by simpa using hchars
    rw [hempty]
    exact dropUnits.eq_1 _
  | cons c chars ih =>
    have hsplit : before = String.singleton c ++ String.ofList chars := by
      apply String.toList_inj.1
      simp [hchars]
    have hpos : 0 < jsLength (String.singleton c) := jsLength_pos (by simp [String.ext_iff])
    obtain ⟨n, hn⟩ : ∃ n, jsLength before = n + 1 := by
      rw [hsplit, jsLength_append]
      exact ⟨jsLength (String.singleton c) + jsLength (String.ofList chars) - 1, by omega⟩
    have hrest : n + 1 - jsLength (String.singleton c) = jsLength (String.ofList chars) := by
      rw [← hn, hsplit, jsLength_append]
      omega
    rw [hn, cons_append, dropUnits, hrest]
    exact ih (String.ofList chars) String.toList_ofList

theorem jsSliceFrom_append (before after : String) : jsSliceFrom (before ++ after) (jsLength before) = after := by
  rw [jsSliceFrom, dropUnits_append, String.ofList_toList]

theorem startsWith_iff : startsWith s start = true ↔ start.toList <+: s.toList :=
  isPrefixOf_iff_prefix

theorem collapseSlashes_append (h : '/' ∉ part) (rest : List Char) :
    collapseSlashes (part ++ rest) = part ++ collapseSlashes rest := by
  induction part with
  | nil => rfl
  | cons c part ih =>
    rw [mem_cons, not_or] at h
    rw [cons_append, collapseSlashes, if_neg (fun hc => h.1 hc.1.symm), ih h.2, cons_append]

theorem collapseSlashes_parts {parts : List String} (h : ∀ part ∈ parts, '/' ∉ part.toList) :
    collapseSlashes (parts.flatMap fun part => '/' :: part.toList) =
      ((parts.filter (· ≠ "")).flatMap fun part => '/' :: part.toList) ++
        if parts.getLast? = some "" then ['/'] else [] := by
  induction parts with
  | nil => rfl
  | cons part parts ih =>
    obtain ⟨hpart, hparts⟩ := forall_mem_cons.1 h
    by_cases hempty : part = ""
    · subst hempty
      cases parts with
      | nil => rfl
      | cons next rest =>
        have hhead : (((next :: rest).flatMap fun part => '/' :: part.toList)).head? = some '/' := rfl
        have hskip : collapseSlashes ('/' :: (next :: rest).flatMap fun part => '/' :: part.toList) =
            collapseSlashes ((next :: rest).flatMap fun part => '/' :: part.toList) := by
          rw [collapseSlashes, if_pos ⟨rfl, hhead⟩]
        rw [flatMap_cons, List.getLast?_cons_cons, filter_cons_of_neg (by simp), ← ih hparts]
        exact hskip
    · have hne : part.toList ≠ [] := by simpa using hempty
      obtain ⟨c, chars, hchars⟩ := exists_cons_of_ne_nil hne
      have hkeep : collapseSlashes ('/' :: (part.toList ++ parts.flatMap fun part => '/' :: part.toList)) =
          '/' :: collapseSlashes (part.toList ++ parts.flatMap fun part => '/' :: part.toList) := by
        rw [collapseSlashes, if_neg]
        rintro ⟨-, hhead⟩
        rw [hchars, cons_append, List.head?_cons, Option.some.injEq] at hhead
        exact hpart (by rw [hchars, hhead]; exact mem_cons_self)
      have hlast : ((part :: parts).getLast? = some "") ↔ parts.getLast? = some "" := by
        cases parts with
        | nil => simp [hempty]
        | cons next rest => rw [List.getLast?_cons_cons]
      simp only [hlast]
      rw [flatMap_cons, cons_append, hkeep, collapseSlashes_append hpart, ih hparts,
        filter_cons_of_pos (by simpa using hempty), flatMap_cons, cons_append,
        cons_append, append_assoc]

theorem ne_nil_of_jsSplit (path : String) : jsSplit '/' path ≠ [] := by
  rw [jsSplit, ne_eq, map_eq_nil_iff]
  exact splitOnPPrepend_ne_nil _ _ _

theorem withLeadingSlash_eq (path : String) :
    ∃ rest, (if startsWith path "/" then path else "/" ++ path) = urlPath (jsSplit '/' rest) ∧
      urlParts rest = urlParts path := by
  by_cases hslash : startsWith path "/"
  · obtain ⟨rest, hrest⟩ := startsWith_iff.1 hslash
    have hpath : path = "/" ++ String.ofList rest := by
      apply String.toList_inj.1
      rw [String.toList_append, String.toList_ofList]
      simpa using hrest.symm
    refine ⟨String.ofList rest, ?_, ?_⟩
    · rw [if_pos hslash, urlPath, jsJoin_jsSplit, ← hpath]
    · rw [hpath, urlParts_slash]
  · exact ⟨path, by rw [if_neg hslash, urlPath, jsJoin_jsSplit], rfl⟩

theorem getLast?_urlPath {parts : List String} (h : Parted parts) (hne : parts ≠ []) :
    (urlPath parts).toList.getLast? ≠ some '/' := by
  obtain ⟨first, rest, rfl⟩ := exists_cons_of_ne_nil hne
  obtain ⟨-, last, hlast, hslash⟩ := jsJoin_ends h
  rw [toList_urlPath, List.getLast?_cons, hlast]
  simpa using hslash

theorem urlPath_nil : urlPath [] = "/" := by decide

theorem urlPath_eq_slash_iff (h : Parted parts) : urlPath parts = "/" ↔ parts = [] := by
  rw [← urlPath_nil]
  exact ⟨urlPath_inj h (forall_mem_nil _), congrArg urlPath⟩

theorem normalizePath_eq (path : String) : normalizePath path = urlPath (urlParts path) := by
  obtain ⟨rest, hleading, hparts⟩ := withLeadingSlash_eq path
  have hcollapsed := collapseSlashes_parts fun part hpart => not_mem_of_mem_jsSplit (c := '/') (s := rest) hpart
  rw [← toList_urlPath_flatMap (ne_nil_of_jsSplit rest), ← urlParts, hparts] at hcollapsed
  rw [normalizePath]
  simp only [hleading, hcollapsed]
  have hparted := parted_urlParts path
  by_cases hnil : urlParts path = []
  · have hlast : (jsSplit '/' rest).getLast? = some "" := by
      have hall : ∀ part ∈ jsSplit '/' rest, part = "" := by
        intro part hpart
        by_contra hne
        have hmem : part ∈ urlParts rest := mem_filter.2 ⟨hpart, decide_eq_true hne⟩
        rw [hparts, hnil] at hmem
        cases hmem
      rw [List.getLast?_eq_some_getLast (ne_nil_of_jsSplit rest)]
      exact congrArg some (hall _ (getLast_mem _))
    simp only [hnil, hlast]
    decide
  · by_cases hlast : (jsSplit '/' rest).getLast? = some ""
    · have htwo : 1 < jsLength (String.ofList ((urlPath (urlParts path)).toList ++ ['/'])) := by
        have htext : String.ofList ((urlPath (urlParts path)).toList ++ ['/']) =
            urlPath (urlParts path) ++ "/" := by
          apply String.toList_inj.1
          simp
        have hpos : 0 < jsLength (urlPath (urlParts path)) := jsLength_pos (by simp [urlPath])
        rw [htext, jsLength_append, jsLength_slash]
        omega
      rw [if_pos hlast, ← toList_urlPath_flatMap hnil, if_pos ⟨htwo, List.getLast?_concat⟩,
        dropLast_concat, String.ofList_toList]
    · rw [if_neg hlast, append_nil, ← toList_urlPath_flatMap hnil,
        if_neg fun h => getLast?_urlPath hparted hnil h.2, String.ofList_toList]

theorem joinPaths_eq (base suffix : String) : joinPaths base suffix = urlPath (urlParts base ++ urlParts suffix) := by
  have hbase := parted_urlParts base
  have hsuffix := parted_urlParts suffix
  simp only [joinPaths, normalizePath_eq, urlPath_eq_slash_iff hbase, urlPath_eq_slash_iff hsuffix]
  by_cases hnosuffix : urlParts suffix = []
  · rw [if_pos hnosuffix, hnosuffix, append_nil]
  · rw [if_neg hnosuffix]
    by_cases hnobase : urlParts base = []
    · rw [if_pos hnobase, hnobase, nil_append]
    · rw [if_neg hnobase, urlPath_append hnobase hnosuffix, String.append_assoc]
      rfl

section
variable {parts rest : List String}

theorem matchesHttpPluginPath_iff (h : Parted parts) (hpathname : Parted pathname) :
    matchesHttpPluginPath (urlPath parts) (urlPath pathname) = true ↔ parts <+: pathname := by
  rw [matchesHttpPluginPath]
  by_cases hnil : parts = []
  · subst hnil
    have hslash : startsWith (urlPath pathname) "/" = true := by
      rw [startsWith_iff, toList_urlPath]
      exact ⟨_, rfl⟩
    simp [urlPath_nil, hslash]
  · rw [← urlPath_within_iff h hpathname hnil, if_neg (c := urlPath parts = "/")
      (mt (urlPath_eq_slash_iff h).1 hnil)]
    by_cases hsame : urlPath parts = urlPath pathname
    · simp [hsame]
    · rw [if_neg hsame, startsWith_iff]
      exact (or_iff_right (Ne.symm hsame)).symm

theorem getRemainingHttpPluginPath_eq (h : Parted (parts ++ rest)) :
    getRemainingHttpPluginPath (urlPath parts) (urlPath (parts ++ rest)) = jsJoin '/' rest := by
  obtain ⟨hparts, -⟩ := forall_mem_append.1 h
  rw [getRemainingHttpPluginPath]
  by_cases hrest : rest = []
  · rw [hrest, append_nil, if_pos rfl]
    rfl
  · have hne : urlPath parts ≠ urlPath (parts ++ rest) := by
      intro heq
      exact hrest (self_eq_append_right.1 (urlPath_inj hparts h heq))
    rw [if_neg hne]
    by_cases hnil : parts = []
    · subst hnil
      rw [urlPath_nil, if_pos rfl, nil_append, urlPath, ← jsLength_slash, jsSliceFrom_append]
    · rw [if_neg (mt (urlPath_eq_slash_iff hparts).1 hnil), urlPath_append hnil hrest, ← jsLength_slash,
        ← jsLength_append, jsSliceFrom_append]

theorem jsLength_urlPath_lt (hrest : rest ≠ []) (h : Parted rest) :
    jsLength (urlPath parts) < jsLength (urlPath (parts ++ rest)) := by
  by_cases hnil : parts = []
  · have hjoin : jsJoin '/' rest ≠ "" := by
      intro hempty
      have hparts := urlParts_jsJoin h
      rw [hempty] at hparts
      exact hrest hparts.symm
    have hpos := jsLength_pos hjoin
    rw [hnil, nil_append, urlPath_nil, urlPath, jsLength_append]
    omega
  · rw [urlPath_append hnil hrest, jsLength_append, jsLength_append, jsLength_slash]
    omega

end

section
variable {H : Type} {basePath : String}

section
variable (basePath : String)

def fullParts (plugin : HttpApiPlugin H) : List String :=
  urlParts basePath ++ urlParts plugin.path

/-- The plugin with the longest full path that a path begins with, part by part. -/
structure Longest (basePath urlPathname : String) (plugins : List (HttpApiPlugin H))
    (plugin : HttpApiPlugin H) : Prop where
  mem : plugin ∈ plugins
  within : fullParts basePath plugin <+: urlParts urlPathname
  longest : ∀ other ∈ plugins, other ≠ plugin → fullParts basePath other <+: urlParts urlPathname →
    (fullParts basePath other).length < (fullParts basePath plugin).length

def routeOf (plugin : HttpApiPlugin H) : HttpPluginRoute H :=
  ⟨joinPaths basePath plugin.path, plugin⟩

theorem parted_fullParts (plugin : HttpApiPlugin H) : Parted (fullParts basePath plugin) :=
  (parted_urlParts basePath).append (parted_urlParts plugin.path)

theorem fullPath_routeOf (plugin : HttpApiPlugin H) :
    (routeOf basePath plugin).fullPath = urlPath (fullParts basePath plugin) := by
  rw [routeOf, joinPaths_eq, fullParts]

end

theorem registerRouters_ok_iff (h : entries.Nodup) :
    registerRouters entries names = .ok () ↔ (entries ++ names).Nodup := by
  induction names generalizing entries with
  | nil =>
    rw [append_nil]
    exact iff_of_true rfl h
  | cons name names ih =>
    rw [registerRouters]
    by_cases hmem : name ∈ entries
    · rw [if_pos hmem]
      refine iff_of_false (by simp only [reduceCtorEq, not_false_eq_true]) fun hnodup => ?_
      exact (nodup_append.1 hnodup).2.2 name hmem name mem_cons_self rfl
    · have hentries : (entries ++ [name]).Nodup :=
        nodup_append'.2 ⟨h, nodup_singleton name, disjoint_singleton.2 hmem⟩
      rw [if_neg hmem, ih hentries, append_assoc, singleton_append]

theorem registerRoutes_ok_iff (h : (routes.map HttpPluginRoute.fullPath).Nodup):
    registerRoutes basePath routes plugins = .ok result ↔
      result = routes ++ plugins.map (routeOf basePath) ∧
        ((routes ++ plugins.map (routeOf basePath)).map HttpPluginRoute.fullPath).Nodup := by
  induction plugins generalizing routes with
  | nil =>
    rw [registerRoutes, map_nil, append_nil, Except.ok.injEq, eq_comm]
    exact (and_iff_left h).symm
  | cons plugin plugins ih =>
    have hstart : registerRoutes basePath routes (plugin :: plugins) =
        if routes.any (·.fullPath == (routeOf basePath plugin).fullPath) then
          .error ("Duplicate HTTP plugin path '" ++ (routeOf basePath plugin).fullPath ++ "'")
        else registerRoutes basePath (routes ++ [routeOf basePath plugin]) plugins := by
      rw [registerRoutes, routeOf]
    rw [hstart, map_cons]
    generalize routeOf basePath plugin = route at ih ⊢
    have hany : routes.any (·.fullPath == route.fullPath) = true ↔
        route.fullPath ∈ routes.map HttpPluginRoute.fullPath := by
      simp only [any_eq_true, mem_map, beq_iff_eq]
    by_cases hmem : route.fullPath ∈ routes.map HttpPluginRoute.fullPath
    · rw [if_pos (hany.2 hmem)]
      refine iff_of_false (by simp only [reduceCtorEq, not_false_eq_true]) fun hok => ?_
      rw [map_append, map_cons] at hok
      exact (nodup_append.1 hok.2).2.2 _ hmem _ mem_cons_self rfl
    · have hroutes : ((routes ++ [route]).map HttpPluginRoute.fullPath).Nodup := by
        rw [map_append]
        exact nodup_append'.2 ⟨h, nodup_singleton _, disjoint_singleton.2 hmem⟩
      have hstep := ih hroutes
      rw [append_assoc, singleton_append] at hstep
      rw [if_neg (mt hany.1 hmem)]
      exact hstep

theorem createApiHandler_ok_iff {plugins : List (ApiPlugin H ⊕ List (ApiPlugin H))}
    {routes : List (HttpPluginRoute H)} :
    createApiHandler basePath plugins = .ok routes ↔ (trpcNames (flattenPlugins plugins)).Nodup ∧
      (((httpPlugins (flattenPlugins plugins)).map (routeOf basePath)).map HttpPluginRoute.fullPath).Nodup ∧
      routes = ((httpPlugins (flattenPlugins plugins)).map (routeOf basePath)).insertionSort
        fun left right => jsLength right.fullPath ≤ jsLength left.fullPath := by
  have hnone : (([] : List (HttpPluginRoute H)).map HttpPluginRoute.fullPath).Nodup := nodup_nil
  simp only [createApiHandler, bind_eq_ok_iff]
  constructor
  · rintro ⟨_, hrouters, registered, hregistered, hroutes⟩
    have hnodup := (registerRouters_ok_iff nodup_nil).1 hrouters
    obtain ⟨hregistered, hpaths⟩ := (registerRoutes_ok_iff hnone).1 hregistered
    rw [nil_append] at hregistered hpaths
    rw [hregistered] at hroutes
    exact ⟨hnodup, hpaths, (Except.ok.inj hroutes).symm⟩
  · rintro ⟨hnodup, hpaths, rfl⟩
    exact ⟨(), (registerRouters_ok_iff nodup_nil).2 hnodup, _,
      (registerRoutes_ok_iff hnone).2 ⟨rfl, hpaths⟩, rfl⟩

theorem le_of_find?_pairwise {rows : List α} {r : α → α → Prop} {p : α → Bool} {row other : α}
    (horder : rows.Pairwise r) (h : rows.find? p = some row) (hother : other ∈ rows) (hp : p other = true) :
    other = row ∨ r row other := by
  obtain ⟨-, before, after, rfl, hbefore⟩ := List.find?_eq_some_iff_append.1 h
  rcases mem_append.1 hother with hmem | hmem
  · have hnot := hbefore other hmem
    rw [hp] at hnot
    cases hnot
  · rcases mem_cons.1 hmem with rfl | hmem
    · exact .inl rfl
    · exact .inr ((pairwise_cons.1 (pairwise_append.1 horder).2.1).1 other hmem)

structure Registered (basePath : String) (plugins : List (HttpApiPlugin H))
    (routes : List (HttpPluginRoute H)) : Prop where
  mem_iff : ∀ route, route ∈ routes ↔ ∃ plugin ∈ plugins, routeOf basePath plugin = route
  apart : ∀ plugin ∈ plugins, ∀ other ∈ plugins, fullParts basePath plugin = fullParts basePath other →
    plugin = other
  order : routes.Pairwise fun left right => jsLength right.fullPath ≤ jsLength left.fullPath

theorem registered_of_ok {plugins : List (ApiPlugin H ⊕ List (ApiPlugin H))}
    {routes : List (HttpPluginRoute H)} (h : createApiHandler basePath plugins = .ok routes) :
    Registered basePath (httpPlugins (flattenPlugins plugins)) routes := by
  obtain ⟨-, hpaths, rfl⟩ := createApiHandler_ok_iff.1 h
  refine ⟨fun route => ?_, fun plugin hplugin other hother hparts => ?_, ?_⟩
  · rw [(perm_insertionSort _ _).mem_iff, mem_map]
  · have heq := inj_on_of_nodup_map hpaths (mem_map_of_mem hplugin) (mem_map_of_mem hother)
      (by rw [fullPath_routeOf, fullPath_routeOf, hparts])
    exact congrArg HttpPluginRoute.plugin heq
  · have htotal : Std.Total fun left right : HttpPluginRoute H =>
        jsLength right.fullPath ≤ jsLength left.fullPath := ⟨fun _ _ => le_total _ _⟩
    have htrans : IsTrans (HttpPluginRoute H) fun left right =>
        jsLength right.fullPath ≤ jsLength left.fullPath := ⟨fun _ _ _ hab hbc => le_trans hbc hab⟩
    exact pairwise_insertionSort _ _

variable {plugins : List (HttpApiPlugin H)} {routes : List (HttpPluginRoute H)} {urlPathname : String}
  {route : HttpPluginRoute H}

theorem matches_iff (basePath urlPathname : String) (plugin : HttpApiPlugin H) :
    matchesHttpPluginPath (routeOf basePath plugin).fullPath (normalizePath urlPathname) = true ↔
      fullParts basePath plugin <+: urlParts urlPathname := by
  rw [fullPath_routeOf, normalizePath_eq,
    matchesHttpPluginPath_iff (parted_fullParts basePath plugin) (parted_urlParts urlPathname)]

theorem length_lt_of_jsLength_le {parts other whole : List String} (h : parts <+: whole) (hother : other <+: whole)
    (hwhole : Parted whole) (hne : other ≠ parts) (hle : jsLength (urlPath other) ≤ jsLength (urlPath parts)) :
    other.length < parts.length := by
  by_contra hlong
  obtain ⟨rest, rfl⟩ := prefix_of_prefix_length_le h hother (not_lt.1 hlong)
  have hrest : rest ≠ [] := by
    rintro rfl
    exact hne (append_nil _)
  have hparted := (forall_mem_append.1 (hwhole.of_prefix hother)).2
  exact absurd hle (not_le.2 (jsLength_urlPath_lt hrest hparted))

namespace Registered

theorem exists_plugin (h : Registered basePath plugins routes) (hroute : route ∈ routes) :
    route.plugin ∈ plugins ∧ route = routeOf basePath route.plugin := by
  obtain ⟨plugin, hplugin, rfl⟩ := (h.mem_iff route).1 hroute
  exact ⟨hplugin, rfl⟩

theorem longest_of_matchedRoute (h : Registered basePath plugins routes)
    (hmatched : matchedRoute routes urlPathname = some route) :
    Longest basePath urlPathname plugins route.plugin ∧ route = routeOf basePath route.plugin := by
  rw [matchedRoute] at hmatched
  obtain ⟨hplugin, hroute⟩ := h.exists_plugin (List.mem_of_find?_eq_some hmatched)
  have hfits := List.find?_some hmatched
  have hwithin : fullParts basePath route.plugin <+: urlParts urlPathname := by
    rw [← matches_iff, ← hroute]
    exact hfits
  refine ⟨⟨hplugin, hwithin, fun other hother hne hprefixed => ?_⟩, hroute⟩
  have hparts : fullParts basePath other ≠ fullParts basePath route.plugin :=
    fun heq => hne (h.apart other hother _ hplugin heq)
  apply length_lt_of_jsLength_le hwithin hprefixed (parted_urlParts urlPathname) hparts
  have hmem : routeOf basePath other ∈ routes := (h.mem_iff _).2 ⟨other, hother, rfl⟩
  rcases le_of_find?_pairwise h.order hmatched hmem ((matches_iff basePath urlPathname other).2 hprefixed) with
    heq | hle
  · exact absurd (congrArg HttpPluginRoute.plugin heq) hne
  · rw [hroute, fullPath_routeOf, fullPath_routeOf] at hle
    exact hle

theorem matchedRoute_eq_none_iff (h : Registered basePath plugins routes) :
    matchedRoute routes urlPathname = none ↔
      ∀ plugin ∈ plugins, ¬ fullParts basePath plugin <+: urlParts urlPathname := by
  rw [matchedRoute, List.find?_eq_none]
  constructor
  · intro hnone plugin hplugin
    rw [← matches_iff]
    exact hnone _ ((h.mem_iff _).2 ⟨plugin, hplugin, rfl⟩)
  · intro hnone route hroute
    obtain ⟨plugin, hplugin, rfl⟩ := (h.mem_iff route).1 hroute
    rw [matches_iff]
    exact hnone plugin hplugin

theorem matchedRoute_eq_some_iff (h : Registered basePath plugins routes) :
    matchedRoute routes urlPathname = some route ↔
      Longest basePath urlPathname plugins route.plugin ∧ route = routeOf basePath route.plugin := by
  constructor
  · exact h.longest_of_matchedRoute
  · rintro ⟨hlongest, hroute⟩
    cases hmatched : matchedRoute routes urlPathname with
    | none => exact absurd hlongest.within (h.matchedRoute_eq_none_iff.1 hmatched _ hlongest.mem)
    | some found =>
      obtain ⟨hfound, heq⟩ := h.longest_of_matchedRoute hmatched
      have hsame : found.plugin = route.plugin := by
        by_contra hne
        have hlt := hlongest.longest _ hfound.mem hne hfound.within
        exact absurd (hfound.longest _ hlongest.mem (Ne.symm hne) hlongest.within) (Nat.lt_asymm hlt)
      rw [heq, hroute, hsame]

end Registered

theorem httpPlugins_perm {plugins plugins' : List (ApiPlugin H)} (h : plugins'.Perm plugins) :
    (httpPlugins plugins').Perm (httpPlugins plugins) :=
  h.filterMap _

theorem remaining_eq (hlongest : Longest basePath urlPathname plugins route.plugin)
    (hroute : route = routeOf basePath route.plugin) :
    ∃ rest, getRemainingHttpPluginPath route.fullPath (normalizePath urlPathname) = jsJoin '/' rest ∧
      urlParts urlPathname = fullParts basePath route.plugin ++ rest ∧
      normalizePath (route.fullPath ++ "/" ++
        getRemainingHttpPluginPath route.fullPath (normalizePath urlPathname)) = normalizePath urlPathname := by
  obtain ⟨rest, hrest⟩ := hlongest.within
  have hfull : route.fullPath = urlPath (fullParts basePath route.plugin) :=
    (congrArg HttpPluginRoute.fullPath hroute).trans (fullPath_routeOf basePath route.plugin)
  have hparted : Parted (fullParts basePath route.plugin ++ rest) := hrest ▸ parted_urlParts urlPathname
  have hremaining : getRemainingHttpPluginPath route.fullPath (normalizePath urlPathname) = jsJoin '/' rest := by
    rw [hfull, normalizePath_eq, ← hrest]
    exact getRemainingHttpPluginPath_eq hparted
  refine ⟨rest, hremaining, hrest.symm, ?_⟩
  rw [hremaining, hfull, normalizePath_eq, normalizePath_eq, urlParts_append_slash,
    urlParts_urlPath (parted_fullParts basePath route.plugin),
    urlParts_jsJoin (forall_mem_append.1 hparted).2, hrest]

/-- A request goes to the plugin with the longest path that it begins with, whatever the order in which the
plugins are given. -/
theorem createApiHandler_routing (basePath : String) (plugins : List (ApiPlugin H ⊕ List (ApiPlugin H)))
    (routes : List (HttpPluginRoute H)) (h : createApiHandler basePath plugins = .ok routes) :
    (∀ path, normalizePath path = urlPath (urlParts path)) ∧
      (∀ urlPathname route, matchedRoute routes urlPathname = some route ↔
        Longest basePath urlPathname (httpPlugins (flattenPlugins plugins)) route.plugin ∧
          route = ⟨urlPath (fullParts basePath route.plugin), route.plugin⟩) ∧
      (∀ urlPathname, matchedRoute routes urlPathname = none ↔
        ∀ plugin ∈ httpPlugins (flattenPlugins plugins),
          ¬ fullParts basePath plugin <+: urlParts urlPathname) ∧
      (∀ plugins' : List (ApiPlugin H ⊕ List (ApiPlugin H)),
        (flattenPlugins plugins').Perm (flattenPlugins plugins) →
        ∃ routes', createApiHandler basePath plugins' = .ok routes' ∧
          ∀ urlPathname, matchedRoute routes' urlPathname = matchedRoute routes urlPathname) ∧
      ∀ urlPathname route, matchedRoute routes urlPathname = some route →
        ∃ rest, getRemainingHttpPluginPath route.fullPath (normalizePath urlPathname) = jsJoin '/' rest ∧
          urlParts urlPathname = fullParts basePath route.plugin ++ rest ∧
          normalizePath (route.fullPath ++ "/" ++
            getRemainingHttpPluginPath route.fullPath (normalizePath urlPathname)) =
              normalizePath urlPathname := by
  have hregistered := registered_of_ok h
  have hrouteOf (plugin : HttpApiPlugin H) : routeOf basePath plugin = ⟨urlPath (fullParts basePath plugin), plugin⟩ := by
    rw [routeOf, joinPaths_eq, fullParts]
  refine ⟨normalizePath_eq, fun urlPathname route => ?_, fun urlPathname => ?_, fun plugins' hperm => ?_,
    fun urlPathname route hmatched => ?_⟩
  · rw [← hrouteOf]
    exact hregistered.matchedRoute_eq_some_iff
  · exact hregistered.matchedRoute_eq_none_iff
  · obtain ⟨hnames, hpaths, -⟩ := createApiHandler_ok_iff.1 h
    have hplugins := httpPlugins_perm hperm
    have hnames' : (trpcNames (flattenPlugins plugins')).Nodup := (hperm.filterMap _).nodup_iff.2 hnames
    have hpaths' := ((hplugins.map (routeOf basePath)).map HttpPluginRoute.fullPath).nodup_iff.2 hpaths
    have h' := createApiHandler_ok_iff.2 ⟨hnames', hpaths', rfl⟩
    have hregistered' := registered_of_ok h'
    refine ⟨_, h', fun urlPathname => ?_⟩
    have hlongest (plugin : HttpApiPlugin H) :
        Longest basePath urlPathname (httpPlugins (flattenPlugins plugins')) plugin ↔
          Longest basePath urlPathname (httpPlugins (flattenPlugins plugins)) plugin :=
      ⟨fun hl => ⟨hplugins.mem_iff.1 hl.mem, hl.within, fun other ho => hl.longest other (hplugins.mem_iff.2 ho)⟩,
        fun hl => ⟨hplugins.mem_iff.2 hl.mem, hl.within, fun other ho => hl.longest other (hplugins.mem_iff.1 ho)⟩⟩
    apply Option.ext
    intro route
    rw [hregistered'.matchedRoute_eq_some_iff, hregistered.matchedRoute_eq_some_iff, hlongest]
  · obtain ⟨hlongest, hroute⟩ := hregistered.longest_of_matchedRoute hmatched
    exact remaining_eq hlongest hroute

end

def hookPlugins : List (ApiPlugin Nat ⊕ List (ApiPlugin Nat)) :=
  [.inl (.http ⟨"hooks", .inl 0⟩), .inr [.trpc "devices", .http ⟨"/hooks/github/", .inl 1⟩]]

theorem createApiHandler_routing_hooks :
    Longest "/api" "/api//hooks/github/push/" (httpPlugins (flattenPlugins hookPlugins))
      ⟨"/hooks/github/", .inl 1⟩ :=
  (((createApiHandler_routing "/api" hookPlugins
    [⟨"/api/hooks/github", ⟨"/hooks/github/", .inl 1⟩⟩, ⟨"/api/hooks", ⟨"hooks", .inl 0⟩⟩]
    (by decide +kernel)).2.1 "/api//hooks/github/push/" ⟨"/api/hooks/github", ⟨"/hooks/github/", .inl 1⟩⟩).1
      (by decide +kernel)).1

end Trakrai.Workflow
