import EssNode.Storage.Objects

/-!
# Failed Calls

What a call of `put_object` that ends in an error leaves behind.

The call writes the object's metadata first and stores the chunks afterwards. An
error before the metadata are in the database leaves everything as it was. Any later
error leaves the new hash behind: a flush that fails, or a chunk that cannot be
stored. From then on `get_object` compares with the new hash, and the version that
was stored before is never returned again unless it is put again.
-/

namespace EssNode

open Authority Bincode Text

namespace Storage

section Failures

variable {env : StorageEnv} {layer : StorageLayer} {objectId : String} {events : PutEvents}
  {data : List UInt8}

theorem find_objects_step {op : Op} (h : op.records env layer objectId = none) :
    (step env layer op).objects[objectId]? = layer.objects[objectId]? := by
  cases op with
  | put events name data =>
    rcases layer.putObject_cases env events name data with
      ⟨response, hput, -⟩ | ⟨metadata, chunks, dht, stats, response, -, hput, -⟩
    · simp only [step, hput]
    · have hname : name ≠ objectId := by
        rintro rfl
        simp [Op.records, hput] at h
      simp only [step, hput, FinMap.find_insert, if_neg hname]
  | get fault answers name =>
    rcases layer.getObject_cases env fault answers name with
      ⟨message, hget⟩ | ⟨metadata, data, -, -, hget⟩
    · simp only [step, hget]
    · simp only [step, hget, StorageLayer.served]
  | restart config => rfl

theorem find_objects_run {ops : List Op} (h : latest env objectId layer ops = none) :
    (run env layer ops).objects[objectId]? = layer.objects[objectId]? := by
  induction ops generalizing layer with
  | nil => rfl
  | cons op ops ih =>
    rw [latest, Option.or_eq_none_iff] at h
    have hrest := ih h.1
    rw [find_objects_step h.2] at hrest
    exact hrest

theorem find_objects_of_saved (h : (layer.putObject env events objectId data).saved = true) :
    ∃ metadata, (layer.putObject env events objectId data).layer.objects[objectId]?
        = some metadata ∧ metadata.hash = env.hexDigest data := by
  rcases layer.putObject_cases env events objectId data with
    ⟨response, hput, -⟩ | ⟨metadata, chunks, dht, stats, response, hprepared, hput, -⟩
  · simp [hput] at h
  · refine ⟨metadata, ?_, hprepared.hash⟩
    simp only [hput, FinMap.find_insert, if_true]

theorem layer_of_not_saved (h : (layer.putObject env events objectId data).saved = false) :
    (layer.putObject env events objectId data).layer = layer := by
  rcases layer.putObject_cases env events objectId data with
    ⟨response, hput, -⟩ | ⟨metadata, chunks, dht, stats, response, -, hput, -⟩
  · rw [hput]
  · simp [hput] at h

end Failures

/-! ### A version that is lost -/

/-- A node with an object of three bytes. -/
def storedLayer : StorageLayer := (clearLayer.putObject clearEnv smoothly "a" [1, 2, 3]).layer

theorem storedLayer_returns :
    (storedLayer.getObject clearEnv none (faithfully storedLayer) "a").2 = .object [1, 2, 3] := by
  decide +kernel

/-- A call in which the database refuses the metadata. -/
def refused : PutEvents := { smoothly with save := some (.insert "disk full") }

/-- A call in which the network is gone. -/
def offline : PutEvents := { smoothly with store := fun _ => some .noSwarm }

end Storage

end EssNode
