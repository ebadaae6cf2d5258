import Overlay.Proofs.Configuration.Change
import Overlay.Proofs.Configuration.Layered
import Overlay.Proofs.Expansion.Concatenation

/-!
This module contains how the address of the master follows its parts. It is expanded when it is
read, so it stays the scheme, the host and the port put together, whatever other keys are changed.
-/

namespace Overlay

open Expansion
open Placeholder

namespace Properties

variable {p : Properties} {whole first second lead raw raw' text text' : String}

-- The second part is expanded with what the first one has taught the run.
theorem value_joined (hlead : '$' ∉ lead.toList)
    (hwhole : p.get? whole = some (lead ++ raw ++ ":" ++ raw'))
    (hfirst : p.get? first = some raw) (hsecond : p.get? second = some raw')
    (hopen : ¬EndsOpen raw.toList) (htext : (p.value first).result = .ok text)
    (htext' : (p.value second).result = .ok text') :
    (p.value whole).result = .ok (lead ++ text ++ ":" ++ text') := by
  have hraws : (lead ++ raw ++ ":" ++ raw').toList
      = lead.toList ++ (raw.toList ++ ([':'] ++ raw'.toList)) := by
    simp
  have htexts : (lead ++ text ++ ":" ++ text').toList
      = lead.toList ++ (text.toList ++ ([':'] ++ text'.toList)) := by
    simp
  have hmentions : ∀ n, Mentions raw.toList n → Refers p.get? whole n := by
    intro n hn
    rw [refers_iff hwhole, hraws]
    exact (hn.append_left _).append_right _
  have hmentions' : ∀ n, Mentions raw'.toList n → Refers p.get? whole n := by
    intro n hn
    rw [refers_iff hwhole, hraws]
    exact ((hn.append_right _).append_right _).append_right _
  rw [result_value_of_get?_eq_some hfirst] at htext
  rw [result_value_of_get?_eq_some hsecond] at htext'
  obtain ⟨q, hrun, hsound, hclosed⟩ :=
    runs_of_resolveProperty htext hmentions Pass.sound_fresh Pass.closed_fresh
  obtain ⟨q', hrun', _, _⟩ := runs_of_resolveProperty htext' hmentions' hsound hclosed
  have hcolon : '$' ∉ [':'] := by decide
  have hjoined := (hrun.append (hrun'.plain_append hcolon) hopen (by simp)).plain_append hlead
  rw [← hraws, ← htexts] at hjoined
  have hexpand : expand p.get? [whole] (lead ++ raw ++ ":" ++ raw') .fresh
      = (.ok (lead ++ text ++ ":" ++ text'), q') := by
    apply expand_eq_ok_iff.2
    exact ⟨_, String.ofList_toList.symm, substitute_of_runs hjoined⟩
  rw [result_value_of_get?_eq_some hwhole, resolveProperty, hexpand]

end Properties

namespace Configuration

variable {rules : List Rule} {layers : List Layer} {conf : Configuration}

def addressKeys : List String :=
  [Property.masterHostname, Property.masterRpcPort, Property.masterAddress]

theorem get?_run_of_not_written {changes : List Change} {key : String}
    (h : ∀ change ∈ changes, ∀ pair ∈ change.written, pair.1 ≠ key) :
    (conf.run changes).properties.get? key = conf.properties.get? key := by
  rw [get?_run, Dictionary.lastValue?_eq_none]
  . rfl
  . intro pair hpair heq
    obtain ⟨change, hchange, hpair⟩ := List.mem_flatMap.1 hpair
    exact h change hchange pair hpair heq.symm

theorem dollar_not_mem_scheme (b : Bool) : '$' ∉ (scheme b).toList := by
  cases b with
  | false => decide
  | true => decide

theorem get?_masterAddress_of_ofLayers (h : ofLayers rules layers = .ok conf) :
    ∃ b host port, faultTolerant (Layer.merge layers) = .ok b
      ∧ conf.properties.get? Property.masterHostname = some host
      ∧ conf.properties.get? Property.masterRpcPort = some port
      ∧ conf.properties.get? Property.masterAddress
          = some (scheme b ++ host ++ ":" ++ port) := by
  obtain ⟨p, q, hp, _, hq, rfl⟩ := ofLayers_eq_ok_iff.1 h
  obtain ⟨host, port, b, hhost, hport, hb, rfl⟩ := deriveMasterAddress_eq_ok_iff.1 hp
  obtain ⟨n, hn, _⟩ := releaseWorkerPorts_eq_ok_iff.1 hq
  have hget := get?_of_releaseWorkerPorts hn hq
  have hports : ∀ key ∈ addressKeys, key ∉ Property.workerPorts := by
    decide
  have hothers : ∀ key ∈ addressKeys, ¬(1 < n ∧ key ∈ Property.workerPorts) := by
    rintro key hkey ⟨_, hport⟩
    exact hports key hkey hport
  refine ⟨b, host, port, hb, ?_, ?_, ?_⟩
  . rw [hget, if_neg (hothers _ (by decide)), Dictionary.get?_insert_of_ne _ _ (by decide), hhost]
  . rw [hget, if_neg (hothers _ (by decide)), Dictionary.get?_insert_of_ne _ _ (by decide), hport]
  . rw [hget, if_neg (hothers _ (by decide)), Dictionary.get?_insert_self]

theorem masterAddress_follows (h : ofLayers rules layers = .ok conf) :
    ∃ scheme : String,
      ((scheme = "keel-ft://" ∧ AsksForFaultTolerance (Layer.merge layers).get?)
        ∨ (scheme = "keel://" ∧ ¬AsksForFaultTolerance (Layer.merge layers).get?))
      ∧ ∀ changes : List Change,
          (∀ change ∈ changes, ∀ pair ∈ change.written, pair.1 ∉ addressKeys) →
          ∀ raw host port,
            (conf.run changes).properties.get? Property.masterHostname = some raw →
            ¬EndsOpen raw.toList →
            ((conf.run changes).properties.value Property.masterHostname).result = .ok host →
            ((conf.run changes).properties.value Property.masterRpcPort).result = .ok port →
            ((conf.run changes).properties.value Property.masterAddress).result
              = .ok (scheme ++ host ++ ":" ++ port) := by
  obtain ⟨b, rawHost, rawPort, hb, hhost, hport, haddress⟩ := get?_masterAddress_of_ofLayers h
  refine ⟨scheme b, scheme_of_faultTolerant hb, ?_⟩
  intro changes hchanges raw host port hraw hopen htext htext'
  have hsame : ∀ key ∈ addressKeys,
      (conf.run changes).properties.get? key = conf.properties.get? key := by
    intro key hkey
    apply get?_run_of_not_written
    rintro change hchange pair hpair rfl
    exact hchanges change hchange pair hpair hkey
  have heq : rawHost = raw := by
    rw [hsame _ (by decide), hhost] at hraw
    injection hraw
  subst heq
  apply Properties.value_joined (dollar_not_mem_scheme b) _ hraw _ hopen htext htext'
  . exact rawPort
  . rw [hsame _ (by decide), haddress]
  . rw [hsame _ (by decide), hport]

/--
Layers in which the host and the port of the master refer to the same keys.
-/
def interwoven : List Layer :=
  [⟨"site", .site, none, .ofList
    [(Property.masterHostname, "${rack}-${base}"), (Property.masterRpcPort, "${ base }98"),
      (Property.workersPerHostMax, "1"), ("rack", "r${base}"), ("base", "1")]⟩]

def moves : List Change :=
  [.set "base" "19", .set "" "x",
    .merge [("rack", "${z}r${ base }"), (Property.userFileBufferBytes, "3GB")]]

theorem masterAddress_follows_interwoven :
    ∃ conf scheme : _, ofLayers Rule.builtin interwoven = .ok conf
      ∧ (∀ change ∈ moves, ∀ pair ∈ change.written, pair.1 ∉ addressKeys)
      ∧ (conf.run moves).properties.get? Property.masterHostname = some "${rack}-${base}"
      ∧ ¬EndsOpen "${rack}-${base}".toList
      ∧ ((conf.run moves).properties.value Property.masterHostname).result = .ok "${z}r19-19"
      ∧ ((conf.run moves).properties.value Property.masterRpcPort).result = .ok "1998"
      ∧ ((conf.run moves).properties.value Property.masterAddress).result
          = .ok (scheme ++ "${z}r19-19" ++ ":" ++ "1998") := by
  have hreadings : (ofLayers Rule.builtin interwoven).map (fun conf =>
      let p := (conf.run moves).properties
      (p.get? Property.masterHostname, (p.value Property.masterHostname).result,
        (p.value Property.masterRpcPort).result))
      = .ok (some "${rack}-${base}", .ok "${z}r19-19", .ok "1998") := by
    decide +kernel
  have hmoves : ∀ change ∈ moves, ∀ pair ∈ change.written, pair.1 ∉ addressKeys := by
    decide +kernel
  have hopen : ¬EndsOpen "${rack}-${base}".toList := by
    have hclosing : "${rack}-${base}".toList = "${rack}-$\x7bbase".toList ++ ['}'] := by
      decide +kernel
    rw [hclosing]
    exact not_endsOpen_of_brace
  cases hconf : ofLayers Rule.builtin interwoven with
  | error e =>
    rw [hconf] at hreadings
    contradiction
  | ok conf =>
    rw [hconf] at hreadings
    simp only [Except.map, Except.ok.injEq, Prod.mk.injEq] at hreadings
    obtain ⟨hraw, hhost, hport⟩ := hreadings
    obtain ⟨scheme, _, hfollows⟩ := masterAddress_follows hconf
    exact ⟨conf, scheme, rfl, hmoves, hraw, hopen, hhost, hport,
      hfollows moves hmoves _ _ _ hraw hopen hhost hport⟩

end Configuration

end Overlay
