import LocationBroker.Ledger
import LocationBroker.Logging.Setup
import LocationBroker.Proofs.Text.Decoding

/-! # Which filter is installed

What a request comes to depends on the environment and on nothing else: it is silent, it installs a
filter, or it is invalid (`silent_or_installs_or_invalid`).  The requests before it only decide
whether a filter that it would install is refused.
-/

namespace LocationBroker.Logging

open Text

/-! ## What a request comes to -/

/-- A variable is set to a text. -/
def Holds (held : Option (List UInt8)) (text : String) : Prop :=
  held = some (Utf8.encode text)

/-- The names of a mode. -/
inductive Mode.Names : Mode → String → Prop
  | silent : Names .silent "silent"
  | empty : Names .silent ""
  | development : Names .development "development"
  | dev : Names .development "dev"
  | debug : Names .debug "debug"

/-- Blanks around a text make no difference to its canonical form, and neither do capitals. -/
theorem Mode.canonical_respelled {front back text other : String}
    (hfront : isAllBlank front = true) (hback : isAllBlank back = true)
    (hsame : text.toLower = other.toLower) :
    canonical (front ++ text ++ back) = canonical other := by
  have htoList : ∀ t : String, t.toLower.toList = t.toList.map Char.toLower :=
    fun _ => String.toList_map
  have hcanonical : ∀ t, (canonical t).toList = trimChars t.toLower.toList := by
    intro t
    rw [canonical, htoList, htoList, trim, String.toList_ofList, trimChars_map isBlank_toLower]
  have hlower : ∀ {t}, isAllBlank t = true → ∀ c ∈ t.toLower.toList, isBlank c = true := by
    intro t ht c hc
    rw [htoList] at hc
    obtain ⟨d, hd, rfl⟩ := List.mem_map.mp hc
    rw [isBlank_toLower]
    exact List.all_eq_true.mp ht d hd
  have happend : (front ++ text ++ back).toLower.toList =
      front.toLower.toList ++ text.toLower.toList ++ back.toLower.toList := by
    simp [htoList]
  rw [← String.toList_inj, hcanonical, hcanonical, happend,
    trimChars_append (hlower hfront) (hlower hback), hsame]

theorem Mode.parse_respelled {front back text other : String} (hfront : isAllBlank front = true)
    (hback : isAllBlank back = true) (hsame : text.toLower = other.toLower) :
    parse (front ++ text ++ back) = parse other := by
  rw [parse, parse, ofString?, ofString?, canonical_respelled hfront hback hsame]

section

variable (read : Filter.Reader) (env : Environment)

/-- The directives for a mode that has directives of its own. -/
inductive Directs (own : String) : String → Prop
  | level {text : String} : Holds env.level text → Directs own text
  | fallback {text : String} :
      (∀ t, ¬ Holds env.level t) → Holds env.fallback text → Directs own text
  | own : (∀ t, ¬ Holds env.level t) → (∀ t, ¬ Holds env.fallback t) → Directs own own

/-- The mode that a request is about. -/
inductive Resolves : Request → Mode → Prop
  | given {mode : Mode} : Resolves (.mode mode) mode
  | unset : env.mode = none → Resolves .fromEnvironment .silent
  | named {text : String} {mode : Mode} :
      Holds env.mode text → mode.Names (Mode.canonical text) → Resolves .fromEnvironment mode

/-- The request is about a mode that logs something, and these are the directives for it. -/
def Asks (request : Request) (directives : String) : Prop :=
  ∃ mode own, Resolves env request mode ∧ mode.defaultFilter = some own ∧
    Directs env own directives

/-- The directives that the request asks for are read as the filter. -/
def Installs (request : Request) (filter : Filter) : Prop :=
  ∃ directives, Asks env request directives ∧ read directives = .ok filter

/-- What is wrong with a request. -/
inductive Invalid : Request → Error → Prop
  | unknownMode {text : String} :
      Holds env.mode text → (∀ mode : Mode, ¬ mode.Names (Mode.canonical text)) →
      Invalid .fromEnvironment (.unknownMode (Mode.canonical text))
  | modeNotText {octets : List UInt8} :
      env.mode = some octets → (∀ t, ¬ Holds env.mode t) →
      Invalid .fromEnvironment (.modeNotText octets)
  | badFilter {request : Request} {directives : String} {fault : DirectiveFault} :
      Asks env request directives → read directives = .error fault →
      Invalid request (.badFilter directives fault)

end

section

variable {read : Filter.Reader} {env : Environment} {request : Request}

theorem exists_directs (env : Environment) (own : String) :
    ∃ directives, Directs env own directives := by
  by_cases hlevel : ∃ t, Holds env.level t
  · obtain ⟨text, htext⟩ := hlevel
    exact ⟨text, .level htext⟩
  · rw [not_exists] at hlevel
    by_cases hfallback : ∃ t, Holds env.fallback t
    · obtain ⟨text, htext⟩ := hfallback
      exact ⟨text, .fallback hlevel htext⟩
    · exact ⟨own, .own hlevel (not_exists.mp hfallback)⟩

theorem resolves_or_invalid (env : Environment) (request : Request) :
    (∃ mode, Resolves env request mode) ∨ ∃ e, Invalid read env request e := by
  cases request with
  | mode mode => exact .inl ⟨mode, .given⟩
  | fromEnvironment =>
    cases hmode : env.mode with
    | none => exact .inl ⟨.silent, .unset hmode⟩
    | some octets =>
      by_cases htext : ∃ t, Holds env.mode t
      · obtain ⟨text, htext⟩ := htext
        by_cases hnames : ∃ mode : Mode, mode.Names (Mode.canonical text)
        · obtain ⟨mode, hmode⟩ := hnames
          exact .inl ⟨mode, .named htext hmode⟩
        · exact .inr ⟨_, .unknownMode htext (not_exists.mp hnames)⟩
      · exact .inr ⟨_, .modeNotText hmode (not_exists.mp htext)⟩

theorem silent_or_installs_or_invalid (env : Environment) (request : Request) :
    Resolves env request .silent ∨ (∃ filter, Installs read env request filter) ∨
      ∃ e, Invalid read env request e := by
  obtain ⟨mode, hmode⟩ | hinvalid := resolves_or_invalid env request
  · cases hown : mode.defaultFilter with
    | none =>
      cases mode with
      | silent => exact .inl hmode
      | development => cases hown
      | debug => cases hown
    | some own =>
      obtain ⟨directives, hdirects⟩ := exists_directs env own
      have hasks : Asks env request directives := ⟨mode, own, hmode, hown, hdirects⟩
      cases hread : read directives with
      | ok filter => exact .inr (.inl ⟨filter, directives, hasks, hread⟩)
      | error fault => exact .inr (.inr ⟨_, .badFilter hasks hread⟩)
  · exact .inr (.inr hinvalid)

/-! ## What a request does -/

theorem Mode.names_iff {mode : Mode} {name : String} : mode.Names name ↔ (name, mode) ∈ known := by
  constructor
  · rintro (_ | _) <;> decide
  · simp only [known, List.mem_cons, Prod.mk.injEq, List.not_mem_nil, or_false]
    rintro (⟨rfl, rfl⟩ | ⟨rfl, rfl⟩ | ⟨rfl, rfl⟩ | ⟨rfl, rfl⟩ | ⟨rfl, rfl⟩)
    · exact .silent
    · exact .empty
    · exact .development
    · exact .dev
    · exact .debug

theorem Mode.ofString?_eq_some_iff {mode : Mode} {text : String} :
    ofString? text = some mode ↔ mode.Names (canonical text) := by
  rw [names_iff, ofString?, find?_value_eq_some_iff (by decide)]

theorem Mode.ofString?_eq_none_iff {text : String} :
    ofString? text = none ↔ ∀ mode : Mode, ¬ mode.Names (canonical text) := by
  simp only [Option.eq_none_iff_forall_ne_some, ne_eq, ofString?_eq_some_iff]

namespace Environment

theorem text?_eq_some_iff {held : Option (List UInt8)} {text : String} :
    text? held = some text ↔ Holds held text := by
  rw [text?, Option.bind_eq_some_iff, Holds]
  simp only [Utf8.decode?_eq_some_iff, exists_eq_right]

theorem text?_eq_none_iff {held : Option (List UInt8)} :
    text? held = none ↔ ∀ t, ¬ Holds held t := by
  simp only [Option.eq_none_iff_forall_ne_some, ne_eq, text?_eq_some_iff]

theorem directives?_of_directs {mode : Mode} {own directives : String}
    (hown : mode.defaultFilter = some own) (h : Directs env own directives) :
    env.directives? mode = some directives := by
  rw [directives?, hown]
  cases h with
  | level htext => simp [text?_eq_some_iff.mpr htext]
  | fallback hlevel htext => simp [text?_eq_none_iff.mpr hlevel, text?_eq_some_iff.mpr htext]
  | own hlevel hfallback => simp [text?_eq_none_iff.mpr hlevel, text?_eq_none_iff.mpr hfallback]

theorem namedMode_of_holds {text : String} (h : Holds env.mode text) :
    env.namedMode = Mode.parse text := by
  rw [Holds] at h
  rw [namedMode, h]
  simp only [Utf8.decode?_eq_some_iff.mpr rfl]

theorem modeOf_of_resolves {mode : Mode} (h : Resolves env request mode) :
    env.modeOf request = .ok mode := by
  cases h with
  | given => rfl
  | unset hunset => rw [modeOf, namedMode, hunset]
  | named htext hnames =>
    rw [modeOf, namedMode_of_holds htext, Mode.parse, Mode.ofString?_eq_some_iff.mpr hnames]

theorem exists_mode_of_asks {directives : String} (h : Asks env request directives) :
    ∃ mode, env.modeOf request = .ok mode ∧ env.directives? mode = some directives := by
  obtain ⟨mode, own, hmode, hown, hdirects⟩ := h
  exact ⟨mode, modeOf_of_resolves hmode, directives?_of_directs hown hdirects⟩

end Environment

namespace Setup

variable {s : Setup} {filter : Filter}

theorem serve_of_silent (h : Resolves env request .silent) :
    s.serve read env request = (.ok (), s) := by
  simp only [serve, Environment.modeOf_of_resolves h, install, Environment.directives?,
    Mode.defaultFilter, Option.map_none]

theorem serve_first (h : Installs read env request filter) :
    Setup.serve read {} env request = (.ok (), ⟨some filter⟩) := by
  obtain ⟨directives, hasks, hread⟩ := h
  obtain ⟨mode, hmode, hdirectives⟩ := Environment.exists_mode_of_asks hasks
  simp only [serve, hmode, install, hdirectives, hread]

theorem serve_later (h : Installs read env request filter) (first : Filter) :
    Setup.serve read ⟨some first⟩ env request = (.error .alreadyInstalled, ⟨some first⟩) := by
  obtain ⟨directives, hasks, hread⟩ := h
  obtain ⟨mode, hmode, hdirectives⟩ := Environment.exists_mode_of_asks hasks
  simp only [serve, hmode, install, hdirectives, hread]

theorem serve_of_invalid {e : Error} (h : Invalid read env request e) :
    s.serve read env request = (.error e, s) := by
  cases h with
  | unknownMode htext hnames =>
    simp only [serve, Environment.modeOf, Environment.namedMode_of_holds htext, Mode.parse,
      Mode.ofString?_eq_none_iff.mpr hnames]
  | modeNotText hset htext =>
    have hread := Environment.text?_eq_none_iff.mpr htext
    rw [hset, Environment.text?, Option.bind_some] at hread
    simp only [serve, Environment.modeOf, Environment.namedMode, hset, hread]
  | badFilter hasks hread =>
    obtain ⟨mode, hmode, hdirectives⟩ := Environment.exists_mode_of_asks hasks
    simp only [serve, hmode, install, hdirectives, hread]

theorem not_installs_of_invalid {e : Error} (h : Invalid read env request e) :
    ¬ Installs read env request filter := by
  intro hinstalls
  have hserve := serve_first hinstalls
  rw [serve_of_invalid h] at hserve
  cases hserve

/-- A filter that is installed stays. -/
theorem serve_installed (request : Request) :
    (Setup.serve read ⟨some filter⟩ env request).2 = ⟨some filter⟩ := by
  obtain hsilent | ⟨_, hinstalls⟩ | ⟨_, hinvalid⟩ := silent_or_installs_or_invalid env request
  · rw [serve_of_silent hsilent]
  · rw [serve_later hinstalls]
  · rw [serve_of_invalid hinvalid]

theorem serve_of_not_installs (h : ∀ f, ¬ Installs read env request f) :
    (s.serve read env request).2 = s := by
  obtain hsilent | ⟨f, hinstalls⟩ | ⟨_, hinvalid⟩ := silent_or_installs_or_invalid env request
  · rw [serve_of_silent hsilent]
  · exact absurd hinstalls (h f)
  · rw [serve_of_invalid hinvalid]

end Setup

end

/-! ## What a series of requests does -/

namespace Setup

/-- What is installed after the requests. -/
def after (read : Filter.Reader) (s : Setup) (env : Environment) (requests : List Request) :
    Setup :=
  requests.foldl (fun s request => (s.serve read env request).2) s

section

variable {read : Filter.Reader} {env : Environment} {s : Setup} {request : Request}
  {filter : Filter} {requests earlier later : List Request}

theorem after_append (s : Setup) (env : Environment) (earlier later : List Request) :
    s.after read env (earlier ++ later) = (s.after read env earlier).after read env later :=
  List.foldl_append

theorem getElem?_serveAll (s : Setup) (env : Environment) (earlier : List Request)
    (request : Request) (later : List Request) :
    (s.serveAll env (earlier ++ request :: later) read)[earlier.length]? =
      some ((s.after read env earlier).serve read env request) := by
  induction earlier generalizing s with
  | nil => rfl
  | cons first earlier ih => exact ih _

theorem after_installed (requests : List Request) :
    after read ⟨some filter⟩ env requests = ⟨some filter⟩ := by
  induction requests with
  | nil => rfl
  | cons request rest ih => rw [after, List.foldl_cons, serve_installed, ← after, ih]

theorem after_of_not_installs (h : ∀ r ∈ requests, ∀ f, ¬ Installs read env r f) :
    s.after read env requests = s := by
  induction requests with
  | nil => rfl
  | cons request rest ih =>
    rw [List.forall_mem_cons] at h
    rw [after, List.foldl_cons, serve_of_not_installs h.1, ← after, ih h.2]

theorem after_of_first (hearlier : ∀ r ∈ earlier, ∀ f, ¬ Installs read env r f)
    (h : Installs read env request filter) (later : List Request) :
    after read {} env (earlier ++ request :: later) = ⟨some filter⟩ := by
  rw [after_append, after_of_not_installs hearlier, after, List.foldl_cons, serve_first h,
    ← after, after_installed]

theorem exists_first (h : ∃ r ∈ requests, ∃ f, Installs read env r f) :
    ∃ earlier request later filter, requests = earlier ++ request :: later ∧
      (∀ r ∈ earlier, ∀ f, ¬ Installs read env r f) ∧ Installs read env request filter := by
  induction requests with
  | nil => simp at h
  | cons first rest ih =>
    by_cases hfirst : ∃ f, Installs read env first f
    · obtain ⟨filter, hfilter⟩ := hfirst
      exact ⟨[], first, rest, filter, rfl, by simp, hfilter⟩
    · have hrest : ∃ r ∈ rest, ∃ f, Installs read env r f := by simpa [hfirst] using h
      obtain ⟨earlier, request, later, filter, rfl, hearlier, hfilter⟩ := ih hrest
      refine ⟨first :: earlier, request, later, filter, rfl, ?_, hfilter⟩
      exact List.forall_mem_cons.mpr ⟨not_exists.mp hfirst, hearlier⟩

theorem exists_after (h : ∃ r ∈ requests, ∃ f, Installs read env r f) :
    ∃ filter, after read {} env requests = ⟨some filter⟩ := by
  obtain ⟨earlier, request, later, filter, rfl, hearlier, hfilter⟩ := exists_first h
  exact ⟨filter, after_of_first hearlier hfilter later⟩

theorem isInitialized_after_iff :
    (after read {} env requests).isInitialized = true ↔
      ∃ r ∈ requests, ∃ f, Installs read env r f := by
  by_cases h : ∃ r ∈ requests, ∃ f, Installs read env r f
  · obtain ⟨filter, hfilter⟩ := exists_after h
    exact iff_of_true (by rw [hfilter]; rfl) h
  · have hnone : ∀ r ∈ requests, ∀ f, ¬ Installs read env r f := by simpa using h
    refine iff_of_false ?_ h
    rw [after_of_not_installs hnone]
    exact Bool.false_ne_true

theorem installed_after_iff :
    (after read {} env requests).installed = some filter ↔
      ∃ earlier request later, requests = earlier ++ request :: later ∧
        (∀ r ∈ earlier, ∀ f, ¬ Installs read env r f) ∧ Installs read env request filter := by
  constructor
  · intro hinstalled
    have hinitialized : (after read {} env requests).isInitialized = true := by
      rw [isInitialized, hinstalled]
      rfl
    obtain ⟨earlier, request, later, first, rfl, hearlier, hfirst⟩ :=
      exists_first (isInitialized_after_iff.mp hinitialized)
    rw [after_of_first hearlier hfirst] at hinstalled
    obtain rfl : first = filter := Option.some.inj hinstalled
    exact ⟨earlier, request, later, rfl, hearlier, hfirst⟩
  · rintro ⟨earlier, request, later, rfl, hearlier, hfilter⟩
    rw [after_of_first hearlier hfilter]

theorem after_concat (s : Setup) (env : Environment) (requests : List Request)
    (request : Request) :
    s.after read env (requests ++ [request]) =
      ((s.after read env requests).serve read env request).2 := by
  rw [after_append]
  rfl

end

/-- Logging is set up by the first request that would install a filter, with this filter, and then
stays as it is; without such a request it is not set up.  Whatever the environment, every request of
a series is silent, installs a filter or is invalid.  A silent one is answered without an error, and
so is the first one that installs a filter.  A later one that would install a filter is refused, and
an invalid one is answered with what is wrong with it.  Of all these only the first that installs a
filter changes anything.  This holds whatever reads the filters.  Blanks around the name of a mode
and capitals in it make no difference. -/
theorem first_request_installs (read : Filter.Reader) (env : Environment)
    (requests : List Request) :
    ((after read {} env requests).isInitialized = true ↔
      ∃ request ∈ requests, ∃ filter, Installs read env request filter) ∧
    (∀ filter, (after read {} env requests).installed = some filter ↔
      ∃ earlier request later, requests = earlier ++ request :: later ∧
        (∀ r ∈ earlier, ∀ f, ¬ Installs read env r f) ∧ Installs read env request filter) ∧
    (∀ earlier request later, requests = earlier ++ request :: later →
      (Resolves env request .silent ∨ (∃ filter, Installs read env request filter) ∨
        ∃ e, Invalid read env request e) ∧
      ∃ answer, (serveAll {} env requests read)[earlier.length]? =
          some (answer, after read {} env (earlier ++ [request])) ∧
        (Resolves env request .silent →
          answer = .ok () ∧ after read {} env (earlier ++ [request]) = after read {} env earlier) ∧
        (∀ filter, Installs read env request filter →
          (∀ r ∈ earlier, ∀ f, ¬ Installs read env r f) →
          answer = .ok () ∧ after read {} env (earlier ++ [request]) = ⟨some filter⟩) ∧
        (∀ filter, Installs read env request filter → (∃ r ∈ earlier, ∃ f, Installs read env r f) →
          answer = .error .alreadyInstalled ∧
            after read {} env (earlier ++ [request]) = after read {} env earlier) ∧
        ∀ e, Invalid read env request e →
          answer = .error e ∧ e.message = "Invalid environment variable: " ++ e.reason ∧
            after read {} env (earlier ++ [request]) = after read {} env earlier) ∧
    ∀ front text back other, isAllBlank front = true → isAllBlank back = true →
      text.toLower = other.toLower → Mode.parse (front ++ text ++ back) = Mode.parse other := by
  refine ⟨isInitialized_after_iff, fun filter => installed_after_iff, ?_,
    fun _ _ _ _ => Mode.parse_respelled⟩
  rintro earlier request later rfl
  refine ⟨silent_or_installs_or_invalid env request,
    ((after read {} env earlier).serve read env request).1, ?_, ?_, ?_, ?_, ?_⟩
  · rw [getElem?_serveAll, after_concat]
  · intro hsilent
    rw [after_concat, serve_of_silent hsilent]
    exact ⟨rfl, rfl⟩
  · intro filter hfilter hearlier
    rw [after_concat, after_of_not_installs hearlier, serve_first hfilter]
    exact ⟨rfl, rfl⟩
  · intro filter hfilter hearlier
    obtain ⟨first, hfirst⟩ := exists_after hearlier
    rw [after_concat, hfirst, serve_later hfilter]
    exact ⟨rfl, rfl⟩
  · intro e hinvalid
    rw [after_concat, serve_of_invalid hinvalid]
    refine ⟨rfl, ?_, rfl⟩
    cases hinvalid <;> rfl

/-- The variable for the mode holds no text.  Of the two for the filter the first one holds none,
either, and the second one the empty text. -/
theorem first_request_installs_garbled :
    let env : Environment :=
      { mode := some [0xff], level := some [0xff], fallback := some (Utf8.encode "") }
    let requests : List Request := [.fromEnvironment, .mode .development, .mode .debug]
    (after Filter.ofString {} env requests).installed = some ⟨[]⟩ ∧
      (serveAll {} env requests)[0]? = some (.error (.modeNotText [0xff]), ⟨none⟩) ∧
      (serveAll {} env requests)[2]? = some (.error .alreadyInstalled, ⟨some ⟨[]⟩⟩) := by
  intro env requests
  have hnoText : ∀ t, ¬ Holds (some [0xff]) t := Environment.text?_eq_none_iff.mp (by decide)
  have hread : Filter.ofString "" = .ok ⟨[]⟩ := by rfl
  have hdevelopment : Installs Filter.ofString env (.mode .development) ⟨[]⟩ :=
    ⟨"", ⟨.development, "info", .given, rfl, .fallback hnoText rfl⟩, hread⟩
  have hdebug : Installs Filter.ofString env (.mode .debug) ⟨[]⟩ :=
    ⟨"", ⟨.debug, "debug", .given, rfl, .fallback hnoText rfl⟩, hread⟩
  have hinvalid : Invalid Filter.ofString env .fromEnvironment (.modeNotText [0xff]) :=
    .modeNotText rfl hnoText
  have hearlier : ∀ r ∈ [Request.fromEnvironment], ∀ f, ¬ Installs Filter.ofString env r f := by
    simpa using fun f => not_installs_of_invalid hinvalid
  obtain ⟨-, hinstalled, hanswers, -⟩ := first_request_installs Filter.ofString env requests
  obtain ⟨-, _, hfirst, -, -, -, hrefused⟩ := hanswers [] .fromEnvironment _ rfl
  obtain ⟨rfl, -, hunchanged⟩ := hrefused _ hinvalid
  obtain ⟨-, _, hlast, -, -, hrepeated, -⟩ :=
    hanswers [.fromEnvironment, .mode .development] (.mode .debug) [] rfl
  obtain ⟨rfl, hkept⟩ := hrepeated _ hdebug ⟨_, by simp, _, hdevelopment⟩
  have hset : after Filter.ofString {} env [.fromEnvironment, .mode .development] = ⟨some ⟨[]⟩⟩ :=
    after_of_first hearlier hdevelopment []
  refine ⟨(hinstalled _).mpr ⟨_, _, [.mode .debug], rfl, hearlier, hdevelopment⟩, ?_, ?_⟩
  · rwa [hunchanged] at hfirst
  · rwa [hkept, hset] at hlast

end Setup

end LocationBroker.Logging
