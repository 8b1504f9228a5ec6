import LocationBroker.Proofs.Broker.SessionIdentity

/-! # All or nothing

A request for a session changes the providers, the serial and the sessions before the bus is asked
to export the new one.  If the bus refuses, the session is destroyed like any other, and so the
providers may go with it; all else but the serial is as it was (`create_of_refused`), whatever other
sessions are live and whoever exports the path.
-/

namespace LocationBroker.Broker.Service

variable {s : Service} {bus : Bus} {peer : String}

theorem create_of_exported {after : Bus} (hpeer : s.connection = some peer)
    (hexport : bus.registerObject peer s.sessions.nextPath = .ok after)
    (source : Provider.Source) (call : Bus.MethodCall) :
    let o := s.create bus source call
    let path := s.sessions.nextPath
    o.result = .ok path ∧
      o.service = { s with
        sessions := { s.sessions with
          nextSerial := s.sessions.nextSerial + 1
          sessions := s.sessions.sessions ++ [{ owner := call.sender.getD "", path }] }
        providers := s.supplied source } ∧
      o.bus = after := by
  have hcreation := create_creation s bus source call
  rw [reloadIfEmpty_service] at hcreation
  rw [hcreation.unique (.exported hpeer hexport)]
  exact ⟨rfl, rfl, rfl⟩

/-- A session that cannot be exported is taken back: its serial is used up, and the providers go
unless other sessions use them. -/
theorem create_of_refused {e : Bus.Error} (hnumbered : s.sessions.Numbered)
    (hpeer : s.connection = some peer)
    (hexport : bus.registerObject peer s.sessions.nextPath = .error e)
    (source : Provider.Source) (call : Bus.MethodCall) :
    let o := s.create bus source call
    o.result = .error (.bus e) ∧
      o.service = { s with
        sessions := { s.sessions with nextSerial := s.sessions.nextSerial + 1 }
        providers := if s.sessions.sessions = [] then (s.supplied source).release.1
          else s.supplied source } ∧
      o.bus = bus := by
  have hcreation := create_creation s bus source call
  rw [reloadIfEmpty_service] at hcreation
  rw [hcreation.unique (.refused hpeer hexport)]
  refine ⟨rfl, ?_, rfl⟩
  -- The new session is live until it is destroyed, and the others are left.
  have hlive : s.sessions.nextPath ∈ (s.sessions.create (call.sender.getD "")).2.1.paths := by
    simp [Session.Registry.paths_create]
  dsimp only
  rw [Session.Registry.destroy_registry, Session.Registry.destroy_providers,
    hnumbered.remove_create]
  simp only [hlive, true_and]

/-- After whatever a broker was asked since its start, a functional one that is asked for a session
gives all or nothing.  If the bus lets it export the next path, the caller gets this path, a session
of the caller that has it comes after the others, and the bus gains the object.  Otherwise the
caller is told why not, and neither the sessions nor the bus are any different.  The serial is used
up in any case.  The providers that were loaded on demand stay while there are sessions; if there
are none they go, and that counts as a release if there were any. -/
theorem creation_all_or_nothing {c : Config} {source : Provider.Source} {o : Outcome Unit}
    (hstart : start c bus source = .ok o) (hpeer : o.service.connection = some peer)
    (occasions : List Occasion) (current : Bus) (offered : Provider.Source)
    (call : Bus.MethodCall) :
    let s := o.service.after occasions
    let next := s.create current offered call
    let path := s.sessions.nextPath
    let refusal? : Option Bus.Error :=
      if current.isConnected peer = true then
        if current.isExported path = true then some (.objectAlreadyRegistered path.text) else none
      else some .disconnected
    let loaded :=
      if s.providers.records = [] ∧ c.reloadPolicy = .onDemand then (s.providers.load offered).1
      else s.providers
    path.text = c.sessionPathPrefix ++ toString s.sessions.nextSerial ∧
      (refusal? = none →
        next.result = .ok path ∧
          next.service = { s with
            sessions := { s.sessions with
              nextSerial := s.sessions.nextSerial + 1
              sessions := s.sessions.sessions ++
                [{ owner := call.sender.getD "", path, requirements := .any, hook := none }] }
            providers := loaded } ∧
          next.bus = { current with objects := current.objects.insert path peer }) ∧
      ∀ e, refusal? = some e →
        next.result = .error (.bus e) ∧
          next.service = { s with
            sessions := { s.sessions with nextSerial := s.sessions.nextSerial + 1 }
            providers :=
              if s.sessions.sessions = [] then
                { records := []
                  releases := loaded.releases + if loaded.records = [] then 0 else 1 }
              else loaded } ∧
          next.bus = current := by
  intro s next path refusal? loaded
  have hstarted : o.service.sessions.Numbered := start_numbered hstart
  have hnumbered : s.sessions.Numbered := (after_replay hstarted occasions).1
  obtain ⟨hconnection, -, hconfig⟩ := after_fixed hstarted occasions
  have hpeer' : s.connection = some peer := hconnection.trans hpeer
  have hloaded : s.supplied offered = loaded := by
    rw [supplied, show s.config = c from hconfig.trans (start_sessions hstart).1]
  have hrefusal : current.refusal? (.registerObject peer path) = refusal? :=
    current.refusal?_registerObject peer path
  refine ⟨?_, fun hadmitted => ?_, fun e hrefused => ?_⟩
  · have hbase : s.sessions.base = o.service.sessions.base := after_base hstarted occasions
    rw [← (start_paths hstart).2, ← hbase]
    rfl
  · obtain ⟨after, hexport⟩ := Bus.refusal?_eq_none_iff.mp (hrefusal.trans hadmitted)
    obtain ⟨hresult, hservice, hbus⟩ := create_of_exported hpeer' hexport offered call
    rw [hloaded] at hservice
    exact ⟨hresult, hservice, hbus.trans (Bus.registerObject_eq_ok_iff.mp hexport).2.2⟩
  · have hexport := Bus.refusal?_eq_some_iff.mp (hrefusal.trans hrefused)
    have hcreated := create_of_refused hnumbered hpeer' hexport offered call
    rwa [hloaded, loaded.release_eq] at hcreated

/-- The peer that has taken the path of the first session asks for a session. -/
def asking : Bus.MethodCall :=
  { sender := some ":1.0", path := .root, interface := none, member := createMethod }

set_option maxRecDepth 8000 in
/-- On the bus of `occupied` the first request is refused, and the providers go; the second one is
granted. -/
theorem creation_all_or_nothing_occupied :
    ∃ o, start .standard (Bus.run {} occupied) described = .ok o ∧
      let first := o.service.create o.bus described asking
      let second := first.service.create first.bus described asking
      first.result = .error (.bus (.objectAlreadyRegistered firstSession.text)) ∧
        first.service.sessions.sessions = [] ∧ first.bus = o.bus ∧
        first.service.providers = { records := [], releases := 1 } ∧
        second.result = .ok secondSession ∧
        second.service.sessions.sessions.map (·.owner) = [":1.0"] ∧
        second.service.sessions.nextSerial = 2 ∧
        second.bus.exporterOf secondSession = some ":1.1" := by
  obtain ⟨o, hstart, ⟨hpeer, hconnected⟩, ⟨hfirst, htaken⟩, ⟨hsecond, hfree⟩, ⟨hlength, hserial⟩,
      hrecords, hreleases⟩ :=
    exists_start .standard (Bus.run {} occupied) described (fun o =>
      let refused := o.service.after [⟨o.bus, .create described asking⟩]
      (o.service.connection = some ":1.1" ∧ o.bus.isConnected ":1.1" = true) ∧
        (o.service.sessions.nextPath = firstSession ∧ o.bus.isExported firstSession = true) ∧
        (refused.sessions.nextPath = secondSession ∧ o.bus.isExported secondSession = false) ∧
        (o.service.sessions.sessions.length = 0 ∧ o.service.sessions.nextSerial = 0) ∧
        o.service.providers.records.length = 1 ∧ o.service.providers.releases = 0)
      (by decide +kernel)
  have hsome := List.ne_nil_of_length_eq_add_one hrecords
  have hnone := List.length_eq_zero_iff.mp hlength
  -- The first request is made at once, the second one after it.
  obtain ⟨-, -, hrefused⟩ := creation_all_or_nothing hstart hpeer [] o.bus described asking
  obtain ⟨-, hgranted, -⟩ := creation_all_or_nothing hstart hpeer
    [⟨o.bus, .create described asking⟩] o.bus described asking
  simp only [after, List.foldl_cons, List.foldl_nil, perform, Outcome.map_service]
    at hsecond hrefused hgranted
  obtain ⟨hresult, hservice, hbus⟩ := hrefused (.objectAlreadyRegistered firstSession.text)
    (by simp only [hconnected, hfirst, htaken, if_true])
  obtain ⟨hresult', hservice', hbus'⟩ := hgranted
    (by simp [hconnected, hsecond, hfree])
  rw [hsecond] at hresult' hservice' hbus'
  have hleft : (o.service.create o.bus described asking).service.sessions.sessions = [] := by
    rw [hservice]
    exact hnone
  have hused : (o.service.create o.bus described asking).service.sessions.nextSerial = 1 := by
    rw [hservice]
    exact congrArg (· + 1) hserial
  refine ⟨o, hstart, hresult, hleft, hbus, ?_, ?_, ?_, ?_, ?_⟩
  · rw [hservice]
    simp [hnone, hsome, hreleases]
  · rw [hbus]
    exact hresult'
  · rw [hbus, hservice']
    dsimp only
    rw [hleft]
    rfl
  · rw [hbus, hservice']
    exact congrArg (· + 1) hused
  · rw [hbus, hbus', Bus.exporterOf, Ledger.get?_insert, if_pos rfl]

end LocationBroker.Broker.Service
