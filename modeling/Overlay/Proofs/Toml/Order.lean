import Overlay.Proofs.Dictionary
import Overlay.Proofs.Reading
import Overlay.Toml.Document

/-!
This module contains that the tables of a document have their keys in ascending order, in whatever
order the document writes them. Every step of the reading keeps that order: what is written into a
draft, what a draft becomes, and the dates that take the place of tables.
-/

namespace Overlay
namespace Toml

structure OrderedEntries {α : Type} (P : α → Prop) (entries : List (String × α)) : Prop where
  keys : entries.Pairwise (fun a b => a.1 < b.1)
  values : ∀ entry ∈ entries, P entry.2

namespace OrderedEntries

variable {α : Type} {P : α → Prop} {entries : List (String × α)} {key : String} {a : α}

theorem nil : OrderedEntries P [] := ⟨.nil, by simp⟩

theorem insertEntry (h : OrderedEntries P entries) (ha : P a) :
    OrderedEntries P (Dictionary.insertEntry key a entries) := by
  refine ⟨Dictionary.ascending_insertEntry h.keys, ?_⟩
  intro entry hentry
  cases Dictionary.mem_insertEntry hentry with
  | inl heq => rwa [heq]
  | inr hmem => exact h.values entry hmem

theorem of_insertEntry_eq {entries' : List (String × α)} (h : OrderedEntries P entries) (ha : P a)
    (heq : some (Dictionary.insertEntry key a entries) = some entries') :
    OrderedEntries P entries' := by
  injection heq with heq
  rw [← heq]
  exact h.insertEntry ha

theorem of_assoc? (h : OrderedEntries P entries) (hget : Dictionary.assoc? key entries = some a) :
    P a :=
  h.values (key, a) (Dictionary.mem_of_assoc? hget)

theorem map {β : Type} {Q : β → Prop} {f : α → β} (h : OrderedEntries P entries)
    (hf : ∀ entry ∈ entries, Q (f entry.2)) :
    OrderedEntries Q (entries.map fun entry => (entry.1, f entry.2)) := by
  refine ⟨List.pairwise_map.2 h.keys, ?_⟩
  intro entry hentry
  obtain ⟨entry', hentry', rfl⟩ := List.mem_map.1 hentry
  exact hf entry' hentry'

end OrderedEntries

inductive Value.Ordered : Value → Prop where
  | string (s : String) : Ordered (.string s)
  | integer (n : Int) : Ordered (.integer n)
  | float (x : Number.Binary) : Ordered (.float x)
  | boolean (b : Bool) : Ordered (.boolean b)
  | dateTime (t : DateTime) : Ordered (.dateTime t)
  | array {items : List Value} (hitems : ∀ v ∈ items, v.Ordered) : Ordered (.array items)
  | table {entries : List (String × Value)} (hkeys : entries.Pairwise (fun a b => a.1 < b.1))
      (hvalues : ∀ entry ∈ entries, entry.2.Ordered) : Ordered (.table entries)

theorem Value.ordered_table_iff {entries : List (String × Value)} :
    (Value.table entries).Ordered ↔ OrderedEntries Value.Ordered entries := by
  constructor
  . rintro (_ | _ | _ | _ | _ | _ | ⟨hkeys, hvalues⟩)
    exact ⟨hkeys, hvalues⟩
  . rintro ⟨hkeys, hvalues⟩
    exact .table hkeys hvalues

namespace Draft

inductive Ordered : Draft → Prop where
  | value {v : Value} (h : v.Ordered) : Ordered (.value v)
  | table {standing : Standing} {entries : List (String × Draft)}
      (hkeys : entries.Pairwise (fun a b => a.1 < b.1))
      (hdrafts : ∀ entry ∈ entries, entry.2.Ordered) : Ordered (.table standing entries)
  | tables {items : List (List (String × Draft))}
      (hkeys : ∀ entries ∈ items, entries.Pairwise (fun a b => a.1 < b.1))
      (hdrafts : ∀ entries ∈ items, ∀ entry ∈ entries, entry.2.Ordered) : Ordered (.tables items)

theorem ordered_table_iff {standing : Standing} {entries : Entries} :
    (Draft.table standing entries).Ordered ↔ OrderedEntries Draft.Ordered entries := by
  constructor
  . rintro (_ | ⟨hkeys, hdrafts⟩ | _)
    exact ⟨hkeys, hdrafts⟩
  . rintro ⟨hkeys, hdrafts⟩
    exact .table hkeys hdrafts

theorem ordered_tables_iff {items : List Entries} :
    (Draft.tables items).Ordered ↔ ∀ entries ∈ items, OrderedEntries Draft.Ordered entries := by
  constructor
  . rintro (_ | _ | ⟨hkeys, hdrafts⟩) entries hentries
    exact ⟨hkeys entries hentries, hdrafts entries hentries⟩
  . intro h
    exact .tables (fun entries hentries => (h entries hentries).keys)
      fun entries hentries => (h entries hentries).values

def Keeps (f : Entries → Option Entries) : Prop :=
  ∀ entries entries', OrderedEntries Draft.Ordered entries → f entries = some entries' →
    OrderedEntries Draft.Ordered entries'

theorem Keeps.changeLast? {f : Entries → Option Entries} (hf : Keeps f)
    {items items' : List Entries} (h : ∀ entries ∈ items, OrderedEntries Draft.Ordered entries)
    (hlast : Draft.changeLast? f items = some items') :
    ∀ entries ∈ items', OrderedEntries Draft.Ordered entries := by
  induction items generalizing items' with
  | nil => contradiction
  | cons entries rest ih =>
    rw [List.forall_mem_cons] at h
    cases rest with
    | nil =>
      rw [Draft.changeLast?, Option.map_eq_some_iff] at hlast
      obtain ⟨entries', hentries', rfl⟩ := hlast
      simpa using hf entries entries' h.1 hentries'
    | cons entries₂ rest =>
      rw [Draft.changeLast?, Option.map_eq_some_iff] at hlast
      . obtain ⟨rest', hrest', rfl⟩ := hlast
        rw [List.forall_mem_cons]
        exact ⟨h.1, ih h.2 hrest'⟩
      . simp

theorem keeps_changeAt? {fresh : Standing} {enter? : Standing → Option Standing}
    {f : Standing → Entries → Option Entries} (hf : ∀ standing, Keeps (f standing))
    (path : List String) (standing : Standing) :
    Keeps (changeAt? fresh enter? f path standing) := by
  induction path generalizing standing with
  | nil =>
    intro entries entries' h hchange
    exact hf standing entries entries' h hchange
  | cons key path ih =>
    intro entries entries' h hchange
    rw [changeAt?] at hchange
    split at hchange
    . obtain ⟨inner, hinner, hchange⟩ := Option.bind_eq_some_iff.1 hchange
      exact h.of_insertEntry_eq (ordered_table_iff.2 (ih fresh [] inner .nil hinner)) hchange
    . next standing' inner hget =>
      obtain ⟨entered, -, hchange⟩ := Option.bind_eq_some_iff.1 hchange
      obtain ⟨inner', hinner, hchange⟩ := Option.bind_eq_some_iff.1 hchange
      have hordered := ih entered inner inner' (ordered_table_iff.1 (h.of_assoc? hget)) hinner
      exact h.of_insertEntry_eq (ordered_table_iff.2 hordered) hchange
    . next items hget =>
      obtain ⟨items', hitems, hchange⟩ := Option.bind_eq_some_iff.1 hchange
      have hordered := (ih .declared).changeLast? (ordered_tables_iff.1 (h.of_assoc? hget)) hitems
      exact h.of_insertEntry_eq (ordered_tables_iff.2 hordered) hchange
    . contradiction

theorem keeps_addEntry? {key : String} {v : Value} (hv : v.Ordered) : Keeps <| addEntry? key v := by
  intro entries entries' h hadd
  unfold addEntry? at hadd
  split at hadd
  . exact h.of_insertEntry_eq (.value hv) hadd
  . contradiction

theorem keeps_assign? {key : String} {v : Value} (hv : v.Ordered) (path : List String) :
    Keeps (assign? path key v) := by
  apply keeps_changeAt?
  intro standing entries entries' h hadd
  split at hadd
  . contradiction
  . exact keeps_addEntry? hv entries entries' h hadd

theorem keeps_changeUnder? {f : Entries → Option Entries} (hf : Keeps f) (path : List String) :
    Keeps (changeUnder? f path) :=
  keeps_changeAt? (fun _ => hf) path .declared

theorem keeps_declare? (key : String) : Keeps (declare? key) := by
  intro entries entries' h hdeclare
  unfold declare? at hdeclare
  split at hdeclare
  . exact h.of_insertEntry_eq (ordered_table_iff.2 .nil) hdeclare
  . next inner hget =>
    have hordered := ordered_table_iff.1 (h.of_assoc? hget)
    exact h.of_insertEntry_eq (ordered_table_iff.2 hordered) hdeclare
  . contradiction

theorem keeps_append? (key : String) : Keeps (append? key) := by
  intro entries entries' h happend
  unfold append? at happend
  split at happend
  . refine h.of_insertEntry_eq ?_ happend
    rw [ordered_tables_iff]
    simpa using OrderedEntries.nil
  . next items hget =>
    refine h.of_insertEntry_eq ?_ happend
    rw [ordered_tables_iff]
    intro entries hentries
    cases List.mem_append.1 hentries with
    | inl hmem => exact ordered_tables_iff.1 (h.of_assoc? hget) entries hmem
    | inr hnew =>
      rw [List.mem_singleton.1 hnew]
      exact .nil
  . contradiction

theorem toEntries_eq_map (entries : Entries) :
    toEntries entries = entries.map fun entry => (entry.1, entry.2.toValue) := by
  induction entries with
  | nil => rfl
  | cons entry rest ih => rw [toEntries, ih, List.map_cons]

theorem toItems_eq_map (items : List Entries) :
    toItems items = items.map fun entries => .table (toEntries entries) := by
  induction items with
  | nil => rfl
  | cons entries rest ih => rw [toItems, ih, List.map_cons]

theorem Ordered.toValue {draft : Draft} (h : draft.Ordered) : draft.toValue.Ordered := by
  induction h with
  | value h => exact h
  | table hkeys hdrafts ih =>
    rw [Draft.toValue, toEntries_eq_map, Value.ordered_table_iff]
    exact OrderedEntries.map ⟨hkeys, hdrafts⟩ ih
  | tables hkeys hdrafts ih =>
    rw [Draft.toValue, toItems_eq_map]
    apply Value.Ordered.array
    intro v hv
    obtain ⟨entries, hentries, rfl⟩ := List.mem_map.1 hv
    rw [toEntries_eq_map, Value.ordered_table_iff]
    exact OrderedEntries.map ⟨hkeys entries hentries, hdrafts entries hentries⟩
      (ih entries hentries)

theorem ordered_toEntries {entries : Entries} (h : OrderedEntries Draft.Ordered entries) :
    OrderedEntries Value.Ordered (toEntries entries) := by
  rw [toEntries_eq_map]
  exact h.map fun entry hentry => (h.values entry hentry).toValue

end Draft

theorem Meaning.ofOption_eq_ok_iff {α : Type} {o : Option α} {a : α} :
    Meaning.ofOption o = .ok a ↔ o = some a := by
  cases o with
  | none => simp [Meaning.ofOption]
  | some b => simp [Meaning.ofOption]

theorem ordered_of_scalar? {cs : List Char} {v : Value} (h : scalar? cs = some v) : v.Ordered := by
  unfold scalar? at h
  split at h
  . injection h with h
    rw [← h]
    exact .boolean true
  . split at h
    . injection h with h
      rw [← h]
      exact .boolean false
    . simp only [Option.orElse_eq_orElse, Option.orElse_eq_or, Option.or_eq_some_iff,
        Option.map_eq_some_iff] at h
      obtain ⟨n, -, rfl⟩ | ⟨-, ⟨x, -, rfl⟩ | ⟨-, t, -, rfl⟩⟩ := h
      . exact .integer n
      . exact .float x
      . exact .dateTime t

mutual

theorem ordered_of_read {w : Writing} {v : Value} (h : w.read = .ok v) : v.Ordered := by
  cases w with
  | scalar text =>
    rw [Writing.read, Meaning.ofOption_eq_ok_iff] at h
    exact ordered_of_scalar? h
  | quoted q =>
    rw [Writing.read, Meaning.ofOption_eq_ok_iff, Option.map_eq_some_iff] at h
    obtain ⟨s, -, rfl⟩ := h
    exact .string s
  | array items =>
    rw [Writing.read, map_eq_ok_iff] at h
    obtain ⟨values, hvalues, rfl⟩ := h
    exact .array (ordered_of_readItems hvalues)
  | table entries =>
    rw [Writing.read, map_eq_ok_iff] at h
    obtain ⟨drafts, hdrafts, rfl⟩ := h
    rw [Value.ordered_table_iff]
    exact Draft.ordered_toEntries (ordered_of_readEntries .nil hdrafts)

theorem ordered_of_readItems {items : List Writing} {values : List Value}
    (h : readItems items = .ok values) : ∀ v ∈ values, v.Ordered := by
  cases items with
  | nil =>
    injection h with h
    simp [← h]
  | cons w ws =>
    rw [readItems, bind_eq_ok_iff] at h
    obtain ⟨v, hv, h⟩ := h
    obtain ⟨vs, hvs, h⟩ := bind_eq_ok_iff.1 h
    injection h with h
    rw [← h, List.forall_mem_cons]
    exact ⟨ordered_of_read hv, ordered_of_readItems hvs⟩

theorem ordered_of_readEntries {table entries' : Entries} {entries : List (List Part × Writing)}
    (htable : OrderedEntries Draft.Ordered table) (h : readEntries table entries = .ok entries') :
    OrderedEntries Draft.Ordered entries' := by
  cases entries with
  | nil =>
    injection h with h
    rwa [← h]
  | cons entry rest =>
    rw [readEntries, bind_eq_ok_iff] at h
    obtain ⟨⟨path, key⟩, -, h⟩ := h
    obtain ⟨v, hv, h⟩ := bind_eq_ok_iff.1 h
    obtain ⟨table', htable', h⟩ := bind_eq_ok_iff.1 h
    rw [Meaning.ofOption_eq_ok_iff] at htable'
    have hordered := Draft.keeps_assign? (ordered_of_read hv) path table table' htable htable'
    exact ordered_of_readEntries hordered h

end

namespace Sheet

theorem ordered_enter {sheet sheet' : Sheet} {open? : String → Entries → Option Entries}
    {parts : List Part} (hopen : ∀ key, Draft.Keeps (open? key))
    (h : OrderedEntries Draft.Ordered sheet.entries)
    (henter : sheet.enter open? parts = .ok sheet') :
    OrderedEntries Draft.Ordered sheet'.entries := by
  obtain ⟨⟨path, key⟩, -, henter⟩ := bind_eq_ok_iff.1 henter
  obtain ⟨entries, hentries, henter⟩ := bind_eq_ok_iff.1 henter
  rw [Meaning.ofOption_eq_ok_iff] at hentries
  injection henter with henter
  rw [← henter]
  exact Draft.keeps_changeUnder? (hopen key) path sheet.entries entries h hentries

theorem ordered_read {sheet sheet' : Sheet} {statement : Statement}
    (h : OrderedEntries Draft.Ordered sheet.entries) (hread : sheet.read statement = .ok sheet') :
    OrderedEntries Draft.Ordered sheet'.entries := by
  cases statement with
  | table parts => exact ordered_enter Draft.keeps_declare? h hread
  | item parts => exact ordered_enter Draft.keeps_append? h hread
  | assignment parts w =>
    obtain ⟨⟨path, key⟩, -, hread⟩ := bind_eq_ok_iff.1 hread
    obtain ⟨v, hv, hread⟩ := bind_eq_ok_iff.1 hread
    obtain ⟨entries, hentries, hread⟩ := bind_eq_ok_iff.1 hread
    rw [Meaning.ofOption_eq_ok_iff] at hentries
    injection hread with hread
    rw [← hread]
    have hassign : Draft.Keeps (Draft.assign? path key v) :=
      Draft.keeps_assign? (ordered_of_read hv) path
    exact Draft.keeps_changeUnder? hassign sheet.header sheet.entries entries h hentries

theorem ordered_foldlM {statements : List Statement} {sheet sheet' : Sheet}
    (h : OrderedEntries Draft.Ordered sheet.entries)
    (hread : statements.foldlM Sheet.read sheet = .ok sheet') :
    OrderedEntries Draft.Ordered sheet'.entries := by
  induction statements generalizing sheet with
  | nil =>
    injection hread with hread
    rwa [← hread]
  | cons statement statements ih =>
    rw [List.foldlM_cons, bind_eq_ok_iff] at hread
    obtain ⟨sheet₁, hfirst, hrest⟩ := hread
    exact ih (ordered_read h hfirst) hrest

end Sheet

theorem keys_of_settleEntries? {entries entries' : List (String × Value)}
    (h : settleEntries? entries = some entries') :
    entries'.map Prod.fst = entries.map Prod.fst := by
  induction entries generalizing entries' with
  | nil =>
    injection h with h
    rw [← h]
  | cons entry rest ih =>
    rw [settleEntries?] at h
    obtain ⟨v, -, h⟩ := Option.bind_eq_some_iff.1 h
    obtain ⟨rest', hrest, h⟩ := Option.bind_eq_some_iff.1 h
    injection h with h
    rw [← h, List.map_cons, List.map_cons, ih hrest]

theorem pairwise_of_settleEntries? {entries entries' : List (String × Value)}
    (h : entries.Pairwise (fun a b => a.1 < b.1))
    (hsettle : settleEntries? entries = some entries') :
    entries'.Pairwise (fun a b => a.1 < b.1) := by
  have hkeys : (entries.map Prod.fst).Pairwise (· < ·) := List.pairwise_map.2 h
  rw [← keys_of_settleEntries? hsettle] at hkeys
  exact List.pairwise_map.1 hkeys

theorem ordered_of_toDate? {v date : Value} (h : v.toDate? = some date) : date.Ordered := by
  cases v with
  | string s =>
    rw [Value.toDate?, Option.map_eq_some_iff] at h
    obtain ⟨t, -, rfl⟩ := h
    exact .dateTime t
  | _ => contradiction

mutual

theorem Value.Ordered.settle? {v v' : Value} (h : v.Ordered) (hsettle : v.settle? = some v') :
    v'.Ordered := by
  cases h with
  | string | integer | float | boolean | dateTime =>
    injection hsettle with hsettle
    rw [← hsettle]
    constructor
  | @array items hitems =>
    rw [Value.settle?, Option.map_eq_some_iff] at hsettle
    obtain ⟨items', hitems', rfl⟩ := hsettle
    exact .array (ordered_of_settleItems? hitems hitems')
  | @table entries hkeys hvalues =>
    rw [Value.settle?] at hsettle
    split at hsettle
    . exact ordered_of_toDate? hsettle
    . obtain ⟨entries', hentries', rfl⟩ := Option.map_eq_some_iff.1 hsettle
      exact .table (pairwise_of_settleEntries? hkeys hentries')
        (ordered_of_settleEntries? hvalues hentries')

theorem ordered_of_settleItems? {items items' : List Value} (h : ∀ v ∈ items, v.Ordered)
    (hsettle : settleItems? items = some items') : ∀ v ∈ items', v.Ordered := by
  cases items with
  | nil =>
    injection hsettle with hsettle
    simp [← hsettle]
  | cons v vs =>
    rw [List.forall_mem_cons] at h
    rw [settleItems?] at hsettle
    obtain ⟨v', hv, hsettle⟩ := Option.bind_eq_some_iff.1 hsettle
    obtain ⟨vs', hvs, hsettle⟩ := Option.bind_eq_some_iff.1 hsettle
    injection hsettle with hsettle
    rw [← hsettle, List.forall_mem_cons]
    exact ⟨h.1.settle? hv, ordered_of_settleItems? h.2 hvs⟩

theorem ordered_of_settleEntries? {entries entries' : List (String × Value)}
    (h : ∀ entry ∈ entries, entry.2.Ordered) (hsettle : settleEntries? entries = some entries') :
    ∀ entry ∈ entries', entry.2.Ordered := by
  cases entries with
  | nil =>
    injection hsettle with hsettle
    simp [← hsettle]
  | cons entry rest =>
    rw [List.forall_mem_cons] at h
    rw [settleEntries?] at hsettle
    obtain ⟨v', hv, hsettle⟩ := Option.bind_eq_some_iff.1 hsettle
    obtain ⟨rest', hrest, hsettle⟩ := Option.bind_eq_some_iff.1 hsettle
    injection hsettle with hsettle
    rw [← hsettle, List.forall_mem_cons]
    exact ⟨h.1.settle? hv, ordered_of_settleEntries? h.2 hrest⟩

end

theorem ordered_read {text : String} {entries : List (String × Value)}
    (h : read text = .ok entries) : (Value.table entries).Ordered := by
  obtain ⟨statements, -, h⟩ := bind_eq_ok_iff.1 h
  obtain ⟨sheet, hsheet, h⟩ := bind_eq_ok_iff.1 h
  split at h
  . rw [Meaning.ofOption_eq_ok_iff] at h
    have hordered := Draft.ordered_toEntries (Sheet.ordered_foldlM .nil hsheet)
    exact .table (pairwise_of_settleEntries? hordered.keys h)
      (ordered_of_settleEntries? hordered.values h)
  . contradiction

end Toml
end Overlay
