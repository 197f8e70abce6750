import FleetInventory.Proofs.Search.Faultless
import FleetInventory.Proofs.Search.Selecting

/-!
The components that a search lists, and the component rows that a search for servers joins. Both
ask the same of a component, so a server is found exactly if each group lists one of its
components. Main statement: `components_agree`.
-/
namespace FleetInventory

open Sql

variable {D : Type}

section Finding

variable [LinearOrder D]

/-- A search becomes a statement on the table, and these are the rows that the statement selects. -/
def Sql.Fragment.Finds (m : Operators D) (db : Database D) (table : String)
    (p : Fragment Predicate) (rows : List (Tuple D)) : Prop :=
  ∃ s, Selection.ofFragment p = .ok s ∧ s.source table = (s.query table).text placeholder ∧
    (s.query table).selected ⟨m, db, s.values⟩ = rows

theorem Sql.Fragment.Finds.unique {m : Operators D} {db : Database D} {table : String}
    {p : Fragment Predicate} {rows others : List (Tuple D)} (left : p.Finds m db table rows)
    (right : p.Finds m db table others) : rows = others := by
  obtain ⟨s, compiled, -, rfl⟩ := left
  obtain ⟨t, again, -, rfl⟩ := right
  cases compiled.symm.trans again
  rfl

theorem Sql.Fragment.exists_finds (m : Operators D) (db : Database D) {table : String}
    {own : Set String} {p : Fragment Predicate} (P : Tuple D → Prop) (clean : p.Faultless)
    (selects : ∀ values, p.Selects ⟨m, db, values⟩ own {table} fun σ => P (σ table)) :
    ∃ rows, p.Finds m db table rows ∧ ∀ row, row ∈ rows ↔ row ∈ db table ∧ P row := by
  obtain ⟨s, compiled⟩ := Selection.ofFragment_of_faultless clean
  refine ⟨_, ⟨s, compiled, s.source_eq table, rfl⟩, fun row => ?_⟩
  rw [Selection.mem_selected compiled (selects s.values), Function.update_self]

end Finding

namespace ComponentCriteria

variable [LinearOrder D]

structure MetBy (m : Operators D) (db : Database D) (c : ComponentCriteria) (component : Tuple D) :
    Prop where
  server : ∀ id, c.serverId = some id → component.Has "server_id" (m.bound (.uuid id))
  group : c.group.MetBy m db component

variable {w : Session D}

theorem serverFragment_selects (server : Option Uuid) :
    (serverFragment server).Selects w ∅ {table} fun σ =>
      ∀ id, server = some id → (σ table).Has "server_id" (w.operators.bound (.uuid id)) := by
  refine ⟨serverFragment_scoped server, by simp, ?_⟩
  cases server with
  | none => exact Fragment.nothing_means.congr (by simp)
  | some id => exact (Fragment.equals_means table "server_id" (.uuid id)).singles.congr (by simp)

theorem fragment_selects (c : ComponentCriteria) :
    c.fragment.Selects w names {table} fun σ => c.MetBy w.operators w.tables (σ table) := by
  have group := (ComponentGroup.clauses_selects (w := w) c.group kindName_apart
    table_not_name).singles
  have whole := (serverFragment_selects c.serverId).andThen group (by simp)
  refine ⟨c.fragment_scoped, by simpa using table_not_name, whole.means.congr fun σ => ?_⟩
  exact ⟨fun both => ⟨both.1, both.2⟩, fun met => ⟨met.server, met.group⟩⟩

theorem exists_finds (m : Operators D) (db : Database D) {c : ComponentCriteria}
    (named : c.group.Named) :
    ∃ rows, c.fragment.Finds m db table rows ∧
      ∀ row, row ∈ rows ↔ row ∈ db table ∧ c.MetBy m db row :=
  Fragment.exists_finds m db (c.MetBy m db) (fragment_faultless named) fun _ => c.fragment_selects

end ComponentCriteria

theorem Sql.Tuple.refers_iff_of_has {row owner : Tuple D} {column field : String} {value : D}
    (own : owner.Has field value) : row.Refers column owner field ↔ row.Has column value := by
  constructor
  · rintro ⟨other, given, has⟩
    have same : other = value := Option.some.inj (has.symm.trans own)
    exact same ▸ given
  · intro given
    exact ⟨value, given, own⟩

namespace ServerCriteria

def ofGroups (groups : List ComponentGroup) : ServerCriteria := ⟨none, none, [], [], groups⟩

variable [LinearOrder D]

theorem ofGroups_metBy (m : Operators D) (db : Database D) {groups : List ComponentGroup}
    (full : ∀ group ∈ groups, group.isEmpty = false) (server : Tuple D) :
    (ofGroups groups).MetBy m db server ↔ ∀ group ∈ groups, group.MetByOne m db server := by
  rw [metBy_iff]
  constructor
  · intro met group member
    exact met.2 group member (full group member)
  · intro each
    exact ⟨⟨nofun, nofun, nofun, nofun⟩, fun group member _ => each group member⟩

theorem ofGroups_exists_finds (m : Operators D) (db : Database D) {groups : List ComponentGroup}
    (full : ∀ group ∈ groups, group.isEmpty = false) (named : ∀ group ∈ groups, group.Named) :
    ∃ rows, (ofGroups groups).fragment.Finds m db table rows ∧
      ∀ row, row ∈ rows ↔ row ∈ db table ∧ ∀ group ∈ groups, group.MetByOne m db row := by
  have clean : (ofGroups groups).fragment.Faultless := fragment_faultless nofun nofun named
  obtain ⟨rows, found, inRows⟩ := Fragment.exists_finds m db ((ofGroups groups).MetBy m db) clean
    fun _ => fragment_selects _
  refine ⟨rows, found, fun row => ?_⟩
  rw [inRows, ofGroups_metBy m db full]

end ServerCriteria

variable [LinearOrder D]

/-- A server is found by its component groups exactly if each of them, as a search for components,
lists one of the server's components; and a search for the components of that server lists just
these. None of the searches is refused. -/
theorem components_agree (m : Operators D) (db : Database D) (groups : List ComponentGroup)
    (full : ∀ group ∈ groups, group.isEmpty = false) (named : ∀ group ∈ groups, group.Named) :
    ∃ servers, (ServerCriteria.ofGroups groups).fragment.Finds m db ServerCriteria.table servers ∧
    ∃ listed : ComponentGroup → List (Tuple D),
      (∀ group ∈ groups, (ComponentCriteria.fragment ⟨none, group⟩).Finds m db
        ComponentCriteria.table (listed group)) ∧
      ∀ server ∈ db ServerCriteria.table,
        (server ∈ servers ↔
          ∀ group ∈ groups, ∃ c ∈ listed group, c.Refers "server_id" server "id") ∧
        ∀ id, server.Has "id" (m.bound (.uuid id)) → ∀ group ∈ groups,
          ∃ own, (ComponentCriteria.fragment ⟨some id, group⟩).Finds m db
              ComponentCriteria.table own ∧
            ∀ c, c ∈ own ↔ c ∈ listed group ∧ c.Refers "server_id" server "id" := by
  obtain ⟨servers, found, inServers⟩ := ServerCriteria.ofGroups_exists_finds m db full named
  have search := fun (server : Option Uuid) (group : ComponentGroup) (member : group ∈ groups) =>
    ComponentCriteria.exists_finds m db (c := ⟨server, group⟩) (named group member)
  choose! rows listed inRows using search
  refine ⟨servers, found, rows none, fun group member => listed none group member, ?_⟩
  intro server present
  have inListed : ∀ group ∈ groups, ∀ c, c ∈ rows none group ↔
      c ∈ db ComponentCriteria.table ∧ group.MetBy m db c := by
    intro group member c
    rw [inRows none group member]
    exact and_congr_right fun _ => ⟨fun met => met.group, fun met => ⟨nofun, met⟩⟩
  refine ⟨?_, fun id own group member => ⟨rows (some id) group, listed _ group member, fun c => ?_⟩⟩
  · rw [inServers]
    refine (and_iff_right present).trans (forall₂_congr fun group member => ?_)
    simp only [ComponentGroup.MetByOne, inListed group member]
    constructor
    · rintro ⟨c, inside, refers, met⟩
      exact ⟨c, ⟨inside, met⟩, refers⟩
    · rintro ⟨c, ⟨inside, met⟩, refers⟩
      exact ⟨c, inside, refers, met⟩
  · rw [inRows _ group member, inListed group member, Tuple.refers_iff_of_has own]
    constructor
    · rintro ⟨inside, met⟩
      exact ⟨⟨inside, met.group⟩, met.server id rfl⟩
    · rintro ⟨⟨inside, met⟩, given⟩
      exact ⟨inside, fun other same => Option.some.inj same ▸ given, met⟩

/-- Two groups may be met by different components of one server: the first lists one of them, the
second the other, and the server is found. -/
theorem components_agree_of_two_groups :
    let row (pairs : List (String × String)) : Tuple String := fun column => pairs.lookup column
    let server := row [("id", "1")]
    let one := row [("server_id", "1"), ("model", "A"), ("serial", "7")]
    let two := row [("server_id", "1"), ("model", "B"), ("serial", "8")]
    let db : Database String := fun table =>
      if table = "servers" then [server] else if table = "server_components" then [one, two] else []
    let m : Operators String :=
      { bound := fun value => match value with
          | .text s => s
          | _ => ""
        child := fun _ _ => none
        textAt := fun _ _ => none
        hasKey := fun _ _ => none
        like := fun _ _ => none
        greater := fun _ _ => none
        less := fun _ _ => none }
    let first : ComponentGroup := ⟨none, none, some "A", none, none, [], []⟩
    let second : ComponentGroup := ⟨none, none, none, some "8", none, [], []⟩
    (∀ group ∈ [first, second], group.isEmpty = false) ∧ (∀ group ∈ [first, second], group.Named) ∧
      server ∈ db ServerCriteria.table ∧
      ∃ servers, (ServerCriteria.ofGroups [first, second]).fragment.Finds m db
        ServerCriteria.table servers ∧ server ∈ servers := by
  intro row server one two db m first second
  have full : ∀ group ∈ [first, second], group.isEmpty = false := by decide
  have named : ∀ group ∈ [first, second], group.Named := by
    intro group member
    rcases List.mem_cons.mp member with rfl | member
    · exact ⟨nofun, nofun⟩
    · exact List.mem_singleton.mp member ▸ ⟨nofun, nofun⟩
  have present : server ∈ db ServerCriteria.table := List.mem_singleton_self _
  obtain ⟨servers, found, listed, lists, agree⟩ :=
    components_agree m db [first, second] full named
  refine ⟨full, named, present, servers, found, (agree server present).1.mpr ?_⟩
  have inListed : ∀ group ∈ [first, second], ∀ c ∈ db ComponentCriteria.table,
      group.MetBy m db c → c ∈ listed group := by
    intro group member c inside met
    obtain ⟨rows, again, inRows⟩ :=
      ComponentCriteria.exists_finds m db (c := ⟨none, group⟩) (named group member)
    rw [(lists group member).unique again]
    exact (inRows c).mpr ⟨inside, nofun, met⟩
  intro group member
  rcases List.mem_cons.mp member with rfl | member
  · refine ⟨one, inListed _ (.head _) one (.head _) ?_, "1", rfl, rfl⟩
    refine ⟨nofun, nofun, ?_, nofun, nofun, nofun, nofun⟩
    rintro value ⟨⟩ -
    rfl
  · rw [List.mem_singleton.mp member]
    refine ⟨two, inListed _ (.tail _ (.head _)) two (.tail _ (.head _)) ?_, "1", rfl, rfl⟩
    refine ⟨nofun, nofun, nofun, ?_, nofun, nofun, nofun⟩
    rintro value ⟨⟩ -
    rfl

end FleetInventory
