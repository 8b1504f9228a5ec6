import Mathlib.Logic.Nontrivial.Basic
import LocationBroker.Bus.MatchRule
import LocationBroker.Proofs.Bus.PathGrammar

/-! # What the text of a rule tells

Values stand between apostrophes in the text of a rule, and an apostrophe in a value is written like
the one that ends it.  So a value can hold what looks like its end and the beginning of a detail.
If no value does, the text tells the rule (`eq_of_text_eq`).  Otherwise two rules can have the same
text: where they differ first, one of them states a detail whose beginning the other one has in a
value (`eq_or_swallows`).
-/

namespace LocationBroker.Bus

/-! ## The details of a rule -/

/-- What a rule can state besides the type, in the order in which it is written. -/
inductive Detail where
  | sender
  | interface
  | member
  | path
  deriving DecidableEq

namespace Detail

def all : List Detail := [.sender, .interface, .member, .path]

def key : Detail → String
  | .sender => "sender"
  | .interface => "interface"
  | .member => "member"
  | .path => "path"

/-- The end of a value and the beginning of a detail behind it. -/
def opening (d : Detail) : String := "'," ++ d.key ++ "="

theorem key_append_inj {d e : Detail} {s t : List Char} :
    d.key.toList ++ s = e.key.toList ++ t ↔ d = e ∧ s = t := by
  cases d <;> cases e <;> simp [key]

theorem mem_opening (d : Detail) : '\'' ∈ d.opening.toList := by
  cases d <;> decide

theorem not_mem_tail_opening (d : Detail) : '\'' ∉ d.opening.toList.tail := by
  cases d <;> decide

/-- Nothing is written behind the path. -/
theorem eq_nil_of_path_cons {keys : List Detail} (h : (path :: keys).Sublist all) : keys = [] := by
  have hlast : (path :: keys).Sublist [path] := by
    rw [all] at h
    iterate 3
      obtain h | ⟨_, ⟨⟩, -⟩ := List.sublist_cons_iff.mp h
    exact h
  simpa using hlast

end Detail

theorem ObjectPath.no_apostrophe (path : ObjectPath) : '\'' ∉ path.text.toList := by
  intro hc
  obtain hroot | hpieces := ObjectPath.isValid_iff_grammatical.mp path.valid
  · simp [hroot] at hc
  · obtain hslash | hname := hpieces.slash_or_nameChar _ hc
    · exact absurd hslash (by decide)
    · exact absurd (ObjectPath.isPieceChar_iff.mpr hname) (by decide)

/-- The text holds nothing that looks like the end of a value and the beginning of a detail. -/
def Sealed (text : String) : Prop :=
  ∀ d : Detail, ¬ d.opening.toList <:+: text.toList

theorem sealed_of_no_apostrophe {text : String} (h : '\'' ∉ text.toList) : Sealed text :=
  fun d hopening => h (hopening.subset d.mem_opening)

namespace MatchRule

variable {r s : MatchRule}

def value (r : MatchRule) : Detail → Option String
  | .sender => r.sender
  | .interface => r.interface
  | .member => r.member
  | .path => r.path.map ObjectPath.text

/-- The details that a rule states, with their values. -/
def details (r : MatchRule) : List (Detail × String) :=
  Detail.all.flatMap fun d => ((r.value d).map (d, ·)).toList

/-- The free texts of the rule are sealed. -/
def IsSealed (r : MatchRule) : Prop :=
  ∀ d ≠ .path, ∀ text ∈ r.value d, Sealed text

theorem lookup_details (r : MatchRule) (d : Detail) : r.details.lookup d = r.value d := by
  obtain ⟨_, _ | _, _ | _, _ | _, _ | _⟩ := r <;> cases d <;> rfl

theorem eq_of_details_eq (htype : r.type = s.type) (h : r.details = s.details) : r = s := by
  have hvalue : ∀ d, r.value d = s.value d := fun d => by
    rw [← lookup_details, h, lookup_details]
  have hpath : r.path = s.path :=
    Option.map_injective (@Keyed.text_inj ObjectPath _) (hvalue .path)
  cases r
  cases s
  exact (mk.injEq ..).mpr
    ⟨htype, hvalue .sender, hvalue .interface, hvalue .member, hpath⟩

/-- The details are in the order in which they are written, and the path is a path. -/
structure Fit (details : List (Detail × String)) : Prop where
  keys : (details.map (·.1)).Sublist Detail.all
  path : ∀ text, (Detail.path, text) ∈ details → ObjectPath.isValid text = true

theorem sublist_map_cons_iff {d : Detail} {keys : List Detail} {details : List (Detail × String)} :
    (details.map (·.1)).Sublist (d :: keys) ↔
      ∃ (value : Option String) (rest : List (Detail × String)),
        details = (value.map (d, ·)).toList ++ rest ∧ (rest.map (·.1)).Sublist keys := by
  constructor
  · intro h
    obtain h | ⟨others, heq, h⟩ := List.sublist_cons_iff.mp h
    · exact ⟨none, details, rfl, h⟩
    · obtain ⟨⟨_, value⟩, rest, rfl, rfl, rfl⟩ := List.map_eq_cons_iff.mp heq
      exact ⟨some value, rest, rfl, h⟩
  · rintro ⟨_ | value, rest, rfl, h⟩
    · exact h.cons d
    · exact h.cons_cons d

theorem mem_details_iff {d : Detail} {text : String} :
    (d, text) ∈ r.details ↔ r.value d = some text := by
  have hd : d ∈ Detail.all := by cases d <;> decide
  simp [details, hd]

theorem fit_details (r : MatchRule) : Fit r.details := by
  refine ⟨?_, fun text htext => ?_⟩
  · simp only [details, Detail.all, List.flatMap_cons, List.flatMap_nil, sublist_map_cons_iff]
    exact ⟨_, _, rfl, _, _, rfl, _, _, rfl, _, _, rfl, .slnil⟩
  · obtain ⟨path, -, rfl⟩ := Option.map_eq_some_iff.mp (mem_details_iff.mp htext)
    exact path.valid

/-- Just the details that fit are those of a rule, whatever its type. -/
theorem Fit.exists_rule {details : List (Detail × String)} (h : Fit details)
    (type : Option MessageType) : ∃ r : MatchRule, r.type = type ∧ r.details = details := by
  have hkeys := h.keys
  simp only [Detail.all, sublist_map_cons_iff] at hkeys
  obtain ⟨sender, _, rfl, interface, _, rfl, member, _, rfl, path, rest, rfl, hrest⟩ := hkeys
  obtain rfl : rest = [] := by simpa using hrest
  cases path with
  | none => exact ⟨⟨type, sender, interface, member, none⟩, rfl, rfl⟩
  | some text =>
    have hvalid : ObjectPath.isValid text = true := h.path text (by simp)
    exact ⟨⟨type, sender, interface, member, some ⟨text, hvalid⟩⟩, rfl, rfl⟩

/-! ## The characters of details -/

/-- A comma and a part. -/
def partChars (key value : String) : List Char :=
  ',' :: (key.toList ++ '=' :: '\'' :: (value.toList ++ ['\'']))

def spelled (details : List (Detail × String)) : List Char :=
  details.flatMap fun e => partChars e.1.key e.2

/-- What follows a value that has these details behind it. -/
def ending (details : List (Detail × String)) : List Char :=
  '\'' :: spelled details

section

variable {d : Detail} {v : String} {E E' : List (Detail × String)}

theorem spelled_cons : spelled ((d, v) :: E) =
    ',' :: (d.key.toList ++ '=' :: '\'' :: (v.toList ++ ending E)) := by
  simp [spelled, partChars, ending]

theorem ending_cons :
    ending ((d, v) :: E) = d.opening.toList ++ '\'' :: (v.toList ++ ending E) := by
  simp [ending, spelled_cons, Detail.opening]

/-- What goes before the apostrophe of an ending in another ending is the beginning of a detail and
maybe more. -/
theorem exists_opening {u : List Char} (hu : u ≠ []) (h : ending E = u ++ ending E') :
    ∃ later w back more, E = (later, w) :: back ∧ u = later.opening.toList ++ more ∧
      '\'' :: (w.toList ++ ending back) = more ++ ending E' := by
  obtain ⟨c, u, rfl⟩ := List.exists_cons_of_ne_nil hu
  cases E with
  | nil => simp [ending, spelled] at h
  | cons entry back =>
    obtain ⟨later, w⟩ := entry
    rw [ending_cons, List.append_eq_append_iff] at h
    obtain ⟨more, hu, h⟩ | ⟨more, hopening, h⟩ := h
    · exact ⟨later, w, back, more, rfl, hu, h⟩
    · cases more with
      | nil => exact ⟨later, w, back, [], rfl, by simpa using hopening.symm, by simpa using h.symm⟩
      | cons c' more =>
        -- The apostrophe of the ending would be one inside the opening.
        obtain ⟨rfl, -⟩ := List.cons.inj h
        refine absurd ?_ later.not_mem_tail_opening
        simp [hopening]

end

/-- At the first difference the first list goes on with a detail where the second one has a value
that holds its opening. -/
inductive Swallows : List (Detail × String) → List (Detail × String) → Prop
  | here {d later : Detail} {v w more : String} {back back' : List (Detail × String)} :
      '\'' :: (w.toList ++ ending back) = more.toList ++ ending back' →
      Swallows ((d, v) :: (later, w) :: back) ((d, v ++ later.opening ++ more) :: back')
  | behind {entry : Detail × String} {E E' : List (Detail × String)} :
      Swallows E E' → Swallows (entry :: E) (entry :: E')

/-- The second list has a single value that looks like two neighbouring details of the first one. -/
inductive Merges : List (Detail × String) → List (Detail × String) → Prop
  | here {d later : Detail} {v w : String} {back : List (Detail × String)} :
      Merges ((d, v) :: (later, w) :: back) ((d, v ++ later.opening ++ "'" ++ w) :: back)
  | behind {entry : Detail × String} {E E' : List (Detail × String)} :
      Merges E E' → Merges (entry :: E) (entry :: E')

section

variable {E E' : List (Detail × String)}

theorem exists_swallows {d : Detail} {v v' : String} {u : List Char} (hu : u ≠ [])
    (hv : v'.toList = v.toList ++ u) (h : ending E = u ++ ending E') :
    Swallows ((d, v) :: E) ((d, v') :: E') := by
  obtain ⟨later, w, back, more, rfl, rfl, hrest⟩ := exists_opening hu h
  obtain rfl : v' = v ++ later.opening ++ String.ofList more := by
    rw [← String.toList_inj]
    simp [hv]
  exact .here (by simpa using hrest)

theorem eq_or_swallows (h : spelled E = spelled E') :
    E = E' ∨ Swallows E E' ∨ Swallows E' E := by
  induction E generalizing E' with
  | nil =>
    cases E' with
    | nil => exact .inl rfl
    | cons entry E' => simp [spelled, partChars] at h
  | cons entry E ih =>
    obtain ⟨d, v⟩ := entry
    cases E' with
    | nil => simp [spelled, partChars] at h
    | cons entry' E' =>
      obtain ⟨d', v'⟩ := entry'
      rw [spelled_cons, spelled_cons, List.cons.injEq, Detail.key_append_inj] at h
      obtain ⟨-, rfl, h⟩ := h
      simp only [List.cons.injEq, true_and] at h
      by_cases hv : v = v'
      · subst hv
        have hrest : spelled E = spelled E' := by simpa [ending] using h
        exact (ih hrest).imp (congrArg _) (.imp .behind .behind)
      · rw [List.append_eq_append_iff] at h
        obtain ⟨u, hvalue, h⟩ | ⟨u, hvalue, h⟩ := h
        · refine .inr (.inl (exists_swallows ?_ hvalue h))
          rintro rfl
          exact hv (String.toList_inj.mp (by simpa using hvalue.symm))
        · refine .inr (.inr (exists_swallows ?_ hvalue h))
          rintro rfl
          exact hv (String.toList_inj.mp (by simpa using hvalue))

theorem Swallows.exists_not_sealed (h : Swallows E E') : ∃ entry ∈ E', ¬ Sealed entry.2 := by
  induction h with
  | @here d later v w more back back' _ =>
    refine ⟨_, List.mem_cons_self, fun hsealed => hsealed later ⟨v.toList, more.toList, ?_⟩⟩
    simp
  | behind _ ih =>
    obtain ⟨entry, hentry, hunsealed⟩ := ih
    exact ⟨entry, List.mem_cons_of_mem _ hentry, hunsealed⟩

theorem Swallows.two_le_length (h : Swallows E E') : 2 ≤ E.length := by
  induction h with
  | here => simp
  | behind _ ih => exact Nat.le_succ_of_le ih

theorem Swallows.ne_nil (h : Swallows E E') : E' ≠ [] := by
  cases h <;> exact List.cons_ne_nil _ _

theorem Merges.length_eq (h : Merges E E') : E.length = E'.length + 1 := by
  induction h with
  | here => rfl
  | behind _ ih => exact congrArg Nat.succ ih

theorem Merges.spelled_eq (h : Merges E E') : spelled E = spelled E' := by
  induction h with
  | here => simp [spelled_cons, ending_cons]
  | behind _ ih => exact congrArg (partChars _ _ ++ ·) ih

theorem Fit.ne_path {d : Detail} {v : String} {entry : Detail × String}
    (h : Fit ((d, v) :: entry :: E)) : d ≠ .path := by
  rintro rfl
  cases Detail.eq_nil_of_path_cons h.keys

theorem Fit.tail {entry : Detail × String} (h : Fit (entry :: E)) : Fit E :=
  ⟨(List.sublist_cons_self _ _).trans h.keys, fun text htext => h.path text (.tail _ htext)⟩

/-- What a single detail swallows can be set apart from it. -/
theorem Swallows.exists_merges {d : Detail} {whole : String} (h : Swallows E [(d, whole)])
    (hfit : Fit E) : ∃ E', Fit E' ∧ Merges E' [(d, whole)] := by
  cases h with
  | behind h => cases h
  | @here _ later v w more back _ h =>
    obtain ⟨u, rfl, hw⟩ :
        ∃ u, more = "'" ++ String.ofList u ∧ w.toList ++ ending back = u ++ ['\''] := by
      cases hmore : more.toList with
      | nil => simp [hmore, ending, spelled] at h
      | cons c u =>
        rw [hmore, List.cons_append, List.cons.injEq] at h
        refine ⟨u, String.toList_inj.mp ?_, h.2⟩
        simp [hmore, ← h.1]
    refine ⟨[(d, v), (later, .ofList u)], ⟨?_, fun text htext => ?_⟩, ?_⟩
    · refine .trans ?_ hfit.keys
      simp
    · obtain ⟨rfl, rfl⟩ : later = .path ∧ text = .ofList u := by
        simpa [hfit.ne_path, eq_comm] using htext
      -- Nothing follows the path, so it swallows no more than its value.
      obtain rfl : back = [] := by simpa using Detail.eq_nil_of_path_cons hfit.tail.keys
      obtain rfl : w.toList = u := by simpa [ending, spelled] using hw
      exact hfit.path _ (by simp)
    · rw [← String.append_assoc]
      exact .here

/-- Two details are merged to one that fits, too. -/
theorem Fit.exists_merges (h : Fit E) (hlong : 2 ≤ E.length) : ∃ E', Fit E' ∧ Merges E E' := by
  match E, hlong with
  | (d, v) :: (later, w) :: back, _ =>
    refine ⟨(d, v ++ later.opening ++ "'" ++ w) :: back, ⟨?_, ?_⟩, .here⟩
    · have hkeys := h.keys
      refine .trans ?_ hkeys
      simp
    · intro text htext
      have hback : (.path, text) ∈ back := by simpa [h.ne_path.symm] using htext
      exact h.path text (.tail _ (.tail _ hback))

end

/-! ## The text of a rule -/

/-- A comma and the type, if it is stated. -/
def typeChars (type : Option MessageType) : List Char :=
  (type.map MessageType.text).toList.flatMap (partChars "type")

theorem flatMap_part (key : String) (value : Option String) :
    (part key value).flatMap (fun part => ',' :: part.toList) =
      value.toList.flatMap (partChars key) := by
  cases value <;> simp [part, partChars]

theorem parts_eq (r : MatchRule) : r.parts = part "type" (r.type.map MessageType.text) ++
    Detail.all.flatMap fun d => part d.key (r.value d) := by
  simp [parts, Detail.all, Detail.key, value]

/-- The parts with a comma before each of them. -/
theorem flatMap_parts (r : MatchRule) :
    (r.parts.flatMap fun part => ',' :: part.toList) = typeChars r.type ++ spelled r.details := by
  rw [parts_eq, List.flatMap_append, flatMap_part, List.flatMap_assoc, spelled, details,
    List.flatMap_assoc]
  simp only [flatMap_part]
  refine congrArg (_ ++ ·) (congrArg (List.flatMap · _) (funext fun d => ?_))
  cases r.value d <;> simp

theorem toList_intercalate (parts : List String) :
    (",".intercalate parts).toList = (parts.flatMap fun part => ',' :: part.toList).tail := by
  induction parts with
  | nil => simp
  | cons part rest ih =>
    cases rest with
    | nil => simp
    | cons next rest =>
      rw [String.intercalate_cons_cons, String.toList_append, ih]
      simp

theorem toList_text (r : MatchRule) :
    r.text.toList = (typeChars r.type ++ spelled r.details).tail := by
  rw [text, toList_intercalate, flatMap_parts]

/-- No detail begins with the letter with which the type begins. -/
theorem typeChars_append_ne (t : MessageType) (E E' : List (Detail × String)) :
    typeChars (some t) ++ spelled E ≠ spelled E' := by
  cases E' with
  | nil => simp [typeChars, partChars, spelled]
  | cons entry E' =>
    obtain ⟨d, v⟩ := entry
    cases d <;> simp [typeChars, partChars, spelled_cons, Detail.key]

theorem typeChars_append_inj {type type' : Option MessageType} {E E' : List (Detail × String)}
    (h : typeChars type ++ spelled E = typeChars type' ++ spelled E') :
    type = type' ∧ spelled E = spelled E' := by
  cases type with
  | none =>
    cases type' with
    | none => exact ⟨rfl, h⟩
    | some t' => exact absurd h.symm (typeChars_append_ne t' E' E)
  | some t =>
    cases type' with
    | none => exact absurd h (typeChars_append_ne t E E')
    | some t' =>
      cases t <;> cases t' <;> simp_all [typeChars, partChars, MessageType.text]

theorem eq_nil_or_comma (type : Option MessageType) (E : List (Detail × String)) :
    typeChars type ++ spelled E = [] ∨
      ∃ c rest, typeChars type ++ spelled E = ',' :: c :: rest := by
  cases type with
  | none =>
    cases E with
    | nil => exact .inl rfl
    | cons entry E =>
      obtain ⟨d, v⟩ := entry
      right
      cases d <;> simp [typeChars, spelled_cons, Detail.key]
  | some t => exact .inr ⟨_, _, rfl⟩

/-- Texts are the same exactly if the types are and the details look the same. -/
theorem text_eq_iff :
    r.text = s.text ↔ r.type = s.type ∧ spelled r.details = spelled s.details := by
  rw [← String.toList_inj, toList_text, toList_text]
  constructor
  · intro h
    refine typeChars_append_inj ?_
    obtain hr | ⟨c, rest, hr⟩ := eq_nil_or_comma r.type r.details <;>
      obtain hs | ⟨c', rest', hs⟩ := eq_nil_or_comma s.type s.details <;>
      simp_all
  · rintro ⟨htype, hdetails⟩
    rw [htype, hdetails]

/-! ## What a rule means -/

theorem agrees_eq_true_iff {α : Type} [DecidableEq α] {wanted actual : Option α} :
    agrees wanted actual = true ↔ ∀ w ∈ wanted, actual = some w := by
  cases wanted <;> simp [agrees]

instance : Nontrivial MessageType := ⟨.signal, .methodCall, by decide⟩

instance : Nontrivial String := ⟨"", "/", by decide⟩

instance : Nontrivial ObjectPath := ⟨.root, busPath, by decide⟩

/-- A message that the rule covers.  What the rule leaves out is as it is given. -/
def sample (r : MatchRule) (type : MessageType) (sender interface member : String)
    (path : ObjectPath) : Message :=
  match r.type.getD type with
  | .signal => .signal {
      sender := some (r.sender.getD sender), path := r.path.getD path
      interface := r.interface.getD interface, member := r.member.getD member }
  | .methodCall => .call {
      sender := some (r.sender.getD sender), path := r.path.getD path
      interface := some (r.interface.getD interface), member := r.member.getD member }

theorem agrees_getD {α : Type} [DecidableEq α] (o : Option α) (x : α) :
    agrees o (some (o.getD x)) = true := by
  cases o <;> simp [agrees]

section

variable (r s : MatchRule) (type : MessageType) (sender interface member : String)
  (path : ObjectPath)

theorem covers_sample_iff :
    s.covers (r.sample type sender interface member path) = true ↔
      agrees s.type (some (r.type.getD type)) = true ∧
      agrees s.sender (some (r.sender.getD sender)) = true ∧
      agrees s.path (some (r.path.getD path)) = true ∧
      agrees s.interface (some (r.interface.getD interface)) = true ∧
      agrees s.member (some (r.member.getD member)) = true := by
  rw [covers, sample]
  cases r.type.getD type <;>
    simp only [Message.type, Message.sender, Message.path, Message.interface, Message.member,
      Bool.and_eq_true, and_assoc]

theorem covers_sample : r.covers (r.sample type sender interface member path) = true := by
  simp only [covers_sample_iff, agrees_getD, and_self]

end

theorem stated_of_agrees_getD {α : Type} [DecidableEq α] [Nontrivial α] {stated wanted : Option α}
    (h : ∀ x, agrees wanted (some (stated.getD x)) = true) : ∀ w ∈ wanted, w ∈ stated := by
  intro w hw
  have hget : ∀ x, stated.getD x = w := fun x => by
    simpa using agrees_eq_true_iff.mp (h x) w hw
  cases stated with
  | none =>
    obtain ⟨x, hx⟩ := exists_ne w
    exact absurd (hget x) hx
  | some a => exact congrArg some (hget a)

/-- What a rule states is stated by every rule that covers less. -/
structure Includes (r s : MatchRule) : Prop where
  type : ∀ t ∈ s.type, t ∈ r.type
  value : ∀ d, ∀ text ∈ s.value d, text ∈ r.value d

theorem includes_of_covers_imp (h : ∀ m, r.covers m = true → s.covers m = true) : Includes r s := by
  have hsample := fun type sender interface member path =>
    (covers_sample_iff r s type sender interface member path).mp
      (h _ (covers_sample r type sender interface member path))
  refine ⟨stated_of_agrees_getD fun type => (hsample type "" "" "" .root).1, fun d => ?_⟩
  cases d with
  | sender => exact stated_of_agrees_getD fun x => (hsample .signal x "" "" .root).2.1
  | interface => exact stated_of_agrees_getD fun x => (hsample .signal "" x "" .root).2.2.2.1
  | member => exact stated_of_agrees_getD fun x => (hsample .signal "" "" x .root).2.2.2.2
  | path =>
    intro text htext
    obtain ⟨path, hpath, rfl⟩ := Option.map_eq_some_iff.mp htext
    have hstated := stated_of_agrees_getD (fun x => (hsample .signal "" "" "" x).2.2.1) path hpath
    exact Option.map_eq_some_iff.mpr ⟨path, hstated, rfl⟩

/-- Rules that cover the same messages are the same. -/
theorem eq_of_covers_eq (h : ∀ m, r.covers m = s.covers m) : r = s := by
  have hrs : Includes r s := includes_of_covers_imp fun m hm => (h m).symm.trans hm
  have hsr : Includes s r := includes_of_covers_imp fun m hm => (h m).trans hm
  have hvalue : ∀ d, r.value d = s.value d := fun d =>
    Option.ext fun text => ⟨hsr.value d text, hrs.value d text⟩
  refine eq_of_details_eq (Option.ext fun t => ⟨hsr.type t, hrs.type t⟩) ?_
  simp only [details, hvalue]

/-! ## Rules that share a text -/

theorem IsSealed.of_no_apostrophe (h : ∀ d ≠ .path, ∀ text ∈ r.value d, '\'' ∉ text.toList) :
    r.IsSealed :=
  fun d hd text htext => sealed_of_no_apostrophe (h d hd text htext)

theorem IsSealed.of_mem_details (h : r.IsSealed) : ∀ entry ∈ r.details, Sealed entry.2 := by
  rintro ⟨d, text⟩ hentry
  rw [mem_details_iff] at hentry
  by_cases hd : d = .path
  · subst hd
    obtain ⟨path, -, rfl⟩ := Option.map_eq_some_iff.mp hentry
    exact sealed_of_no_apostrophe path.no_apostrophe
  · exact h d hd text hentry

/-- Rules without such values as look like the beginning of a detail are told by their texts. -/
theorem eq_of_text_eq (hr : r.IsSealed) (hs : s.IsSealed) (h : r.text = s.text) : r = s := by
  obtain ⟨htype, hspelled⟩ := text_eq_iff.mp h
  obtain heq | hswallows | hswallows := eq_or_swallows hspelled
  · exact eq_of_details_eq htype heq
  · obtain ⟨entry, hentry, hopen⟩ := hswallows.exists_not_sealed
    exact absurd (hs.of_mem_details entry hentry) hopen
  · obtain ⟨entry, hentry, hopen⟩ := hswallows.exists_not_sealed
    exact absurd (hr.of_mem_details entry hentry) hopen

/-- A rule shares its text with another one exactly if it states two details, or if it states a
single one whose value looks like two. -/
theorem shares_text_iff :
    (∃ other : MatchRule, other ≠ r ∧ other.text = r.text) ↔
      2 ≤ r.details.length ∨ ∃ other : MatchRule, Merges other.details r.details := by
  constructor
  · rintro ⟨other, hne, htext⟩
    obtain ⟨htype, hspelled⟩ := text_eq_iff.mp htext
    obtain heq | hswallows | hswallows := eq_or_swallows hspelled
    · exact absurd (eq_of_details_eq htype heq) hne
    · by_cases hlong : 2 ≤ r.details.length
      · exact .inl hlong
      · have hpos : 0 < r.details.length := List.length_pos_iff.mpr hswallows.ne_nil
        have hone : r.details.length = 1 := by omega
        obtain ⟨⟨d, whole⟩, hsingle⟩ := List.length_eq_one_iff.mp hone
        rw [hsingle] at hswallows ⊢
        obtain ⟨E, hfit, hmerges⟩ := hswallows.exists_merges (fit_details other)
        obtain ⟨merged, -, rfl⟩ := hfit.exists_rule r.type
        exact .inr ⟨merged, hmerges⟩
    · exact .inl hswallows.two_le_length
  · rintro (hlong | ⟨other, hmerges⟩)
    · obtain ⟨E, hfit, hmerges⟩ := (fit_details r).exists_merges hlong
      obtain ⟨other, htype, rfl⟩ := hfit.exists_rule r.type
      refine ⟨other, ?_, text_eq_iff.mpr ⟨htype, hmerges.spelled_eq.symm⟩⟩
      rintro rfl
      exact absurd hmerges.length_eq (by omega)
    · obtain ⟨other', htype, hdetails⟩ := (fit_details other).exists_rule r.type
      rw [← hdetails] at hmerges
      refine ⟨other', ?_, text_eq_iff.mpr ⟨htype, hmerges.spelled_eq⟩⟩
      rintro rfl
      exact absurd hmerges.length_eq (by omega)

/-- What can be known of the messages that a sealed rule covers from its text. -/
def TextCovers (text : String) (m : Message) : Prop :=
  ∃ r : MatchRule, r.IsSealed ∧ r.text = text ∧ r.covers m = true

theorem IsSealed.textCovers_iff (hr : r.IsSealed) (m : Message) :
    TextCovers r.text m ↔ r.covers m = true := by
  constructor
  · rintro ⟨s, hs, htext, hcovers⟩
    rwa [← eq_of_text_eq hs hr htext]
  · exact fun hcovers => ⟨r, hr, rfl, hcovers⟩

/-- The text of a rule tells the rule among those whose texts hold nothing that looks like the end
of a value and the beginning of a detail: the text alone decides which messages the rule covers.
Among all rules it does not.  A rule has the text of another one, which covers other messages,
exactly if it states two details or one that looks like two. -/
theorem sealed_texts_tell (r : MatchRule) :
    (r.IsSealed →
      (∀ s : MatchRule, s.IsSealed → s.text = r.text → s = r) ∧
        ∀ m, TextCovers r.text m ↔ r.covers m = true) ∧
    ((∃ (other : MatchRule) (m : Message), other.text = r.text ∧ other.covers m ≠ r.covers m) ↔
      2 ≤ r.details.length ∨ ∃ other : MatchRule, Merges other.details r.details) := by
  refine ⟨fun hr => ⟨fun s hs => eq_of_text_eq hs hr, hr.textCovers_iff⟩, ?_⟩
  rw [← shares_text_iff]
  refine exists_congr fun other => ?_
  rw [exists_and_left, and_comm, ← not_forall]
  refine and_congr_left fun _ => not_congr ⟨eq_of_covers_eq, ?_⟩
  rintro rfl _
  rfl

/-- The rule about changes of ownership is sealed, but states two details. -/
theorem sealed_texts_tell_ownershipChanges :
    ownershipChanges.IsSealed ∧
      (∀ m, TextCovers ownershipChanges.text m ↔ ownershipChanges.covers m = true) ∧
      ∃ (other : MatchRule) (m : Message),
        other.text = ownershipChanges.text ∧ other.covers m ≠ ownershipChanges.covers m := by
  obtain ⟨htells, hshares⟩ := sealed_texts_tell ownershipChanges
  have hsealed : ownershipChanges.IsSealed := .of_no_apostrophe fun d _ text htext => by
    cases d <;> cases htext <;> decide
  exact ⟨hsealed, (htells hsealed).2, hshares.mpr (.inl (by decide))⟩

/-- A sender whose name goes on like the detail behind it. -/
theorem glued_sender_shares_text :
    let apart : MatchRule := { sender := some ":1.7", interface := some "org.example.Clock" }
    let glued : MatchRule := { sender := some ":1.7',interface='org.example.Clock" }
    let tick : Message := .signal {
      sender := some ":1.7", path := .root, interface := "org.example.Clock", member := "Tick" }
    apart ≠ glued ∧ apart.text = glued.text ∧ apart.covers tick = true ∧
      glued.covers tick = false := by
  decide

end MatchRule

end LocationBroker.Bus
