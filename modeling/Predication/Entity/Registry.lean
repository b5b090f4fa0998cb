import Predication.Entity

namespace Predication

structure Registry where
  nextId : UInt32
  entities : KeyMap EntityId Entity
  index : KeyMap String EntityId

namespace Registry

def empty : Registry := ⟨100, [], []⟩

def create (r : Registry) : Registry × EntityId :=
  let id : EntityId := ⟨r.nextId⟩
  ({ r with nextId := r.nextId + 1, entities := r.entities.insert id { id := id } }, id)

def get? (r : Registry) (id : EntityId) : Option Entity :=
  r.entities.get? id

/-- Writes to an entity directly; the index does not hear of it. -/
def update (r : Registry) (id : EntityId) (f : Entity → Entity) : Registry :=
  { r with entities := r.entities.modify id f }

/-- The name that an entity bears leaves the index, unless it is empty or the new one. -/
def dropName (r : Registry) (e : Entity) (name : String) : Registry :=
  if e.publicName.isEmpty || e.publicName == name then r
  else { r with index := r.index.erase e.publicName }

/-- Enters a name for an id; the entity that the index held before loses its public name. -/
def claimName (r : Registry) (id : EntityId) (name : String) : Registry :=
  let r' := { r with index := r.index.insert name id }
  match r.index.get? name with
  | none => r'
  | some holder =>
      if holder = id then r' else r'.update holder (fun e => { e with publicName := "" })

def assignName (r : Registry) (id : EntityId) (name : String) : Registry × Bool :=
  match r.get? id with
  | none => (r, false)
  | some e =>
      (((r.dropName e name).update id (fun e => { e with publicName := name })).claimName id name,
        true)

def createNamed (r : Registry) (name thing : String) : Registry × EntityId :=
  let (r, id) := r.create
  let r := (r.assignName id name).1
  (r.update id (fun e => { e with thing := thing }), id)

def lookup? (r : Registry) (name : String) : Option Entity :=
  (r.index.get? name).bind r.get?

def size (r : Registry) : Nat :=
  r.entities.length

def isEmpty (r : Registry) : Bool :=
  r.entities.isEmpty

def all (r : Registry) : List Entity :=
  r.entities.values

theorem assignName_of_unknown {r : Registry} {id : EntityId} {name : String}
    (h : r.get? id = none) : r.assignName id name = (r, false) := by
  simp [assignName, h]

theorem get?_update (r : Registry) (id other : EntityId) (f : Entity → Entity) :
    (r.update id f).get? other = if other = id then (r.get? other).map f else r.get? other := by
  simp [update, get?, KeyMap.get?_modify]

end Registry

end Predication
