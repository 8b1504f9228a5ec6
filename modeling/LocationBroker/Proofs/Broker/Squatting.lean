import LocationBroker.Proofs.Broker.Creation
import Mathlib.Data.Nat.Find

/-! # Squatters

Anybody on the bus can export objects at the paths of a broker's next sessions.  Each request for a
session that fails for this uses up a serial and leaves the bus alone (`create_of_refused`), so the
broker tries one path after the other, and there are no more paths in its way than objects on the
bus (`Bus.exists_free`).
-/

namespace LocationBroker

/-- A bus with few objects leaves one of many paths free. -/
theorem Bus.exists_free (bus : Bus) (base : ObjectPath) (first : Nat) :
    ∃ n ≤ bus.objects.size, bus.isExported (base.withSerial (first + n)) = false := by
  by_contra hfull
  push Not at hfull
  -- Otherwise there are more exported paths than objects, since serials tell paths apart.
  let paths := (List.range (bus.objects.size + 1)).map fun n => base.withSerial (first + n)
  have hnodup : paths.Nodup := by
    refine List.nodup_range.map fun a b heq => ?_
    have hserial := ObjectPath.withSerial_injective heq
    omega
  have hsubset : paths ⊆ bus.objects.keys := by
    intro path hpath
    obtain ⟨n, hn, rfl⟩ := List.mem_map.mp hpath
    have hexported := hfull n (by simpa [Nat.lt_succ_iff] using hn)
    rw [Bool.ne_false_iff, isExported, Ledger.contains, Option.isSome_iff_exists] at hexported
    exact (bus.objects.mem_keys_iff _).mpr hexported
  have hlength := hnodup.length_le_of_subset hsubset
  simp only [paths, Ledger.keys, List.length_map, List.length_range] at hlength
  exact Nat.not_succ_le_self _ hlength

namespace Broker.Service

variable {s : Service} {bus : Bus} {peer : String}

/-- What a broker answers to requests for sessions one after the other, each with the source as it
is then, while nobody else does anything on the bus. -/
def answers (s : Service) (bus : Bus) :
    List (Provider.Source × Bus.MethodCall) → List (Except Error Bus.ObjectPath)
  | [] => []
  | (source, call) :: rest =>
    let o := s.create bus source call
    o.result :: o.service.answers o.bus rest

/-- The broker passes all the paths that are taken, and gives away the first free one. -/
theorem answers_squatted (hnumbered : s.sessions.Numbered) (hpeer : s.connection = some peer)
    (hconnected : bus.isConnected peer = true) {taken : Nat}
    (htaken : ∀ n < taken,
      bus.isExported (s.sessions.base.withSerial (s.sessions.nextSerial + n)) = true)
    (hfree : bus.isExported (s.sessions.base.withSerial (s.sessions.nextSerial + taken)) = false)
    {requests : List (Provider.Source × Bus.MethodCall)} (hmany : taken < requests.length) :
    ∃ rest, s.answers bus requests =
      (List.range' s.sessions.nextSerial taken).map
          (fun serial => .error (.bus
            (.objectAlreadyRegistered (s.sessions.base.withSerial serial).text)))
        ++ .ok (s.sessions.base.withSerial (s.sessions.nextSerial + taken)) :: rest := by
  -- By induction on the number of paths that are taken.
  induction taken generalizing s requests with
  | zero =>
    obtain ⟨⟨source, call⟩, rest, rfl⟩ := List.exists_cons_of_length_pos hmany
    have hunused : bus.exporterOf s.sessions.nextPath = none :=
      Option.isNone_iff_eq_none.mp (Option.isSome_eq_false_iff.mp hfree)
    have hexport := Bus.registerObject_eq_ok_iff.mpr ⟨hconnected, hunused, rfl⟩
    obtain ⟨hresult, -, -⟩ := create_of_exported hpeer hexport source call
    refine ⟨(s.create bus source call).service.answers (s.create bus source call).bus rest, ?_⟩
    rw [answers, hresult]
    rfl
  | succ taken ih =>
    obtain ⟨⟨source, call⟩, rest, rfl⟩ :=
      List.exists_cons_of_length_pos (Nat.lt_of_le_of_lt (Nat.zero_le _) hmany)
    have hrefusal : bus.refusal? (.registerObject peer s.sessions.nextPath) =
        some (.objectAlreadyRegistered s.sessions.nextPath.text) := by
      have hexported : bus.isExported s.sessions.nextPath = true := htaken 0 (Nat.succ_pos taken)
      simp [Bus.refusal?_registerObject, hconnected, hexported]
    obtain ⟨hresult, hservice, hbus⟩ := create_of_refused hnumbered hpeer
      (Bus.refusal?_eq_some_iff.mp hrefusal) source call
    -- The broker goes on with the next serial, and with the bus as it was.
    have hnumbered' : (s.create bus source call).service.sessions.Numbered :=
      perform_numbered hnumbered bus (.create source call)
    have hsessions : (s.create bus source call).service.sessions =
        { s.sessions with nextSerial := s.sessions.nextSerial + 1 } := by
      rw [hservice]
    have hshift : ∀ n, s.sessions.nextSerial + 1 + n = s.sessions.nextSerial + (n + 1) := by
      intro n
      omega
    obtain ⟨others, hothers⟩ := ih hnumbered' (by rw [hservice]; exact hpeer)
      (by
        intro n hn
        rw [hsessions, hshift]
        exact htaken (n + 1) (Nat.succ_lt_succ hn))
      (by
        rw [hsessions, hshift]
        exact hfree)
      (Nat.lt_of_succ_lt_succ hmany)
    refine ⟨others, ?_⟩
    rw [hsessions] at hothers
    rw [answers, hresult, hbus, hothers, hshift]
    rfl

/-- After whatever a broker was asked since its start, and whoever exports whatever on the bus, a
functional broker that is still connected can be asked for one session more than there are objects
on the bus, and gives one away.  Until then it answers that the path is taken, and the first path
that it gives away has the least serial, of those not used up, whose path nobody exports. -/
theorem squatters_give_way {c : Config} {source : Provider.Source} {o : Outcome Unit}
    (hstart : start c bus source = .ok o) (hpeer : o.service.connection = some peer)
    (occasions : List Occasion) {current : Bus} (hconnected : current.isConnected peer = true)
    {requests : List (Provider.Source × Bus.MethodCall)}
    (hmany : current.objects.size < requests.length) :
    let s := o.service.after occasions
    let path := s.sessions.base.withSerial
    (∀ n, (path n).text = c.sessionPathPrefix ++ toString n) ∧
      ∃ serial rest, s.sessions.nextSerial ≤ serial ∧
        serial ≤ s.sessions.nextSerial + current.objects.size ∧
        current.isExported (path serial) = false ∧
        (∀ n, s.sessions.nextSerial ≤ n → n < serial → current.isExported (path n) = true) ∧
        s.answers current requests =
          (List.range' s.sessions.nextSerial (serial - s.sessions.nextSerial)).map
              (fun n => .error (.bus (.objectAlreadyRegistered (path n).text)))
            ++ .ok (path serial) :: rest := by
  intro s path
  have hstarted : o.service.sessions.Numbered := start_numbered hstart
  have hnumbered : s.sessions.Numbered := (after_replay hstarted occasions).1
  have hpeer' : s.connection = some peer := (after_fixed hstarted occasions).1.trans hpeer
  refine ⟨fun n => ?_, ?_⟩
  · rw [← (start_paths hstart).2, ← after_base hstarted occasions]
    rfl
  · have hexists := current.exists_free s.sessions.base s.sessions.nextSerial
    obtain ⟨hfew, hfree⟩ := Nat.find_spec hexists
    have htaken : ∀ n < Nat.find hexists,
        current.isExported (path (s.sessions.nextSerial + n)) = true := by
      intro n hn
      by_contra hunused
      exact Nat.find_min hexists hn
        ⟨Nat.le_trans (Nat.le_of_lt hn) hfew, Bool.eq_false_iff.mpr hunused⟩
    obtain ⟨rest, hanswers⟩ := answers_squatted hnumbered hpeer' hconnected htaken hfree
      (Nat.lt_of_le_of_lt hfew hmany)
    refine ⟨_, rest, Nat.le_add_right _ _, Nat.add_le_add_left hfew _, hfree, ?_, ?_⟩
    · intro n hle hlt
      obtain ⟨k, rfl⟩ := Nat.exists_eq_add_of_le hle
      exact htaken k (Nat.lt_of_add_lt_add_left hlt)
    · rw [Nat.add_sub_cancel_left]
      exact hanswers

/-- Somebody exports objects at the paths of the first two sessions. -/
def besieged : List Bus.Action :=
  occupied ++ [.registerObject ":1.0" secondSession]

/-- The path of the third session of the standard broker. -/
def thirdSession : Bus.ObjectPath := ⟨"/org/freedesktop/Geoclue/Master/client2", by decide⟩

set_option maxRecDepth 8000 in
/-- On the bus of `besieged`, with the broker's own object the third one, the third of four requests
is granted. -/
theorem squatters_give_way_besieged :
    ∃ o, start .standard (Bus.run {} besieged) .none = .ok o ∧ o.bus.objects.size = 3 ∧
      ∃ rest, o.service.answers o.bus (List.replicate 4 (.none, asking)) =
        [.error (.bus (.objectAlreadyRegistered firstSession.text)),
          .error (.bus (.objectAlreadyRegistered secondSession.text)), .ok thirdSession]
            ++ rest := by
  obtain ⟨o, hstart, ⟨hpeer, hconnected⟩, hsize, hserial, ⟨hfirst, hsecond, hthird⟩, htaken,
      htaken', hfree⟩ :=
    exists_start .standard (Bus.run {} besieged) .none (fun o =>
      (o.service.connection = some ":1.1" ∧ o.bus.isConnected ":1.1" = true) ∧
        o.bus.objects.size = 3 ∧ o.service.sessions.nextSerial = 0 ∧
        (o.service.sessions.base.withSerial 0 = firstSession ∧
          o.service.sessions.base.withSerial 1 = secondSession ∧
          o.service.sessions.base.withSerial 2 = thirdSession) ∧
        o.bus.isExported firstSession = true ∧ o.bus.isExported secondSession = true ∧
        o.bus.isExported thirdSession = false) (by decide)
  have hmany : o.bus.objects.size < (List.replicate 4 (Provider.Source.none, asking)).length := by
    rw [hsize]
    decide
  obtain ⟨-, serial, rest, -, -, hleast, hpassed, hanswers⟩ :=
    squatters_give_way hstart hpeer [] hconnected hmany
  simp only [after, List.foldl_nil, hserial] at hleast hpassed hanswers
  -- The serials below the third one are taken, and the third one is not.
  have hnotFirst : serial ≠ 0 := by
    rintro rfl
    simp [hfirst, htaken] at hleast
  have hnotSecond : serial ≠ 1 := by
    rintro rfl
    simp [hsecond, htaken'] at hleast
  have hnotLater : ¬ 2 < serial := by
    intro hlt
    have hexported := hpassed 2 (Nat.zero_le _) hlt
    simp [hthird, hfree] at hexported
  have hserial' : serial = 2 := by omega
  subst hserial'
  refine ⟨o, hstart, hsize, rest, ?_⟩
  rw [← hfirst, ← hsecond, ← hthird]
  exact hanswers

end Broker.Service

end LocationBroker
