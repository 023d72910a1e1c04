import MappingSweep.Action
import MappingSweep.Config.Template
import MappingSweep.Proofs.Config.Document
import MappingSweep.Proofs.FileSystem.Reading
import MappingSweep.Proofs.Text.Octets

/-!
# Loading base configurations

Which files are of no use as a base configuration, and why.  A merged configuration that was
written out is loaded as the tree that it was.
-/

namespace MappingSweep

theorem FileSystem.readText_writeText {fs fs' : FileSystem} {p : Path} {text : String}
    (h : fs.writeText p text = .ok fs') : fs'.readText p = .ok text := by
  have hbytes := readBytes_writeBytes (mapError_eq_ok h)
  simp only [readText, hbytes, Text.fromUTF8?_toUTF8]

/-- Why a base configuration cannot be loaded. -/
inductive Template.Unloadable (fs : FileSystem) (path : Path) : LoadFault → Prop
  | unread {e : IoFault} (hread : fs.readText path = .error e) : Unloadable fs path (.io e)
  | unparsed {text : String} {f : Yaml.Fault} (hread : fs.readText path = .ok text)
      (hparse : Yaml.read text = .error f) : Unloadable fs path (.document f)
  | unconverted {text : String} {value : Yaml.Value} {reason : LoadFault}
      (hread : fs.readText path = .ok text) (hparse : Yaml.read text = .ok value)
      (hconvert : Config.ofDocument value = .error reason) : Unloadable fs path reason
  | notMapping {text : String} {value : Yaml.Value} {base : Config}
      (hread : fs.readText path = .ok text) (hparse : Yaml.read text = .ok value)
      (hconvert : Config.ofDocument value = .ok base) (hmap : base.isMap = false) :
      Unloadable fs path .notMapping

namespace Template

variable {fs : FileSystem} {path : Path}

/-- A file that holds the text of a mapping is a base configuration of use. -/
theorem load_of_mapping {text : String} {value : Yaml.Value} {base : Config}
    (hread : fs.readText path = .ok text) (hparse : Yaml.read text = .ok value)
    (hconvert : Config.ofDocument value = .ok base) (hmap : base.isMap = true) :
    load fs path = .ok ⟨path, base⟩ := by
  simp [load, parse, hread, hparse, hconvert, hmap, mapError_ok, bind, Except.bind, pure,
    Except.pure]

theorem load_of_unloadable {reason : LoadFault} (h : Unloadable fs path reason) :
    load fs path = .error (.configLoad path reason) := by
  unfold load parse
  cases h with
  | unread hread => simp [hread, mapError_error, bind, Except.bind]
  | unparsed hread hparse =>
    simp [hread, hparse, mapError_ok, mapError_error, bind, Except.bind]
  | unconverted hread hparse hconvert =>
    simp [hread, hparse, hconvert, mapError_ok, bind, Except.bind]
  | notMapping hread hparse hconvert hmap =>
    simp [hread, hparse, hconvert, hmap, mapError_ok, bind, Except.bind, throw, throwThe,
      MonadExceptOf.throw]

/-- There is no other reason why a base configuration cannot be loaded. -/
theorem load_of_loadable (h : ∀ reason, ¬ Unloadable fs path reason) :
    ∃ base, load fs path = .ok ⟨path, base⟩ := by
  cases hread : fs.readText path with
  | error e => exact absurd (.unread hread) (h _)
  | ok text =>
    cases hparse : Yaml.read text with
    | error f => exact absurd (.unparsed hread hparse) (h _)
    | ok value =>
      cases hconvert : Config.ofDocument value with
      | error reason => exact absurd (.unconverted hread hparse hconvert) (h _)
      | ok base =>
        cases hmap : base.isMap with
        | false => exact absurd (.notMapping hread hparse hconvert hmap) (h _)
        | true => exact ⟨base, load_of_mapping hread hparse hconvert hmap⟩

theorem exists_unloadable {e : SweepError} (h : load fs path = .error e) :
    ∃ reason, Unloadable fs path reason ∧ e = .configLoad path reason := by
  by_cases hloads : ∀ reason, ¬ Unloadable fs path reason
  · obtain ⟨base, hbase⟩ := load_of_loadable hloads
    rw [hbase] at h
    cases h
  · obtain ⟨reason, hreason⟩ := Classical.not_forall.mp hloads
    have hunloadable : Unloadable fs path reason := Classical.not_not.mp hreason
    rw [load_of_unloadable hunloadable] at h
    exact ⟨reason, hunloadable, (Except.error.inj h).symm⟩

theorem materialize_eq_ok_iff {template : Template} {overrides c : Config} {target : Path}
    {fs' : FileSystem} : template.materialize overrides target fs = .ok (c, fs') ↔
      c = template.base.merge overrides ∧ fs.writeText target c.documentText = .ok fs' := by
  simp only [materialize]
  constructor
  · intro h
    split at h
    · rename_i hwrite
      cases h
      exact ⟨rfl, hwrite⟩
    · cases h
  · rintro ⟨rfl, hwrite⟩
    rw [hwrite]

/-- Where the printed document is read back as it was, a materialized configuration is loaded as
the very tree that was written, with every key, list and leaf as it was, or it is refused for not
being a mapping.  Of floats, only the NaNs are one and the same here. -/
theorem load_of_materialized {template : Template} {overrides c : Config} {target : Path}
    {fs fs' : FileSystem} (hbase : template.base.WellFormed) (hoverrides : overrides.WellFormed)
    (hwritten : template.materialize overrides target fs = .ok (c, fs'))
    (hreads : Yaml.read (Yaml.print c.toDocument) = .ok c.toDocument) :
    (c.isMap = true → load fs' target = .ok ⟨target, c⟩) ∧
      (c.isMap = false → ∃ reason, load fs' target = .error (.configLoad target reason) ∧
        reason.message = "the top level is not a mapping") := by
  obtain ⟨hmerged, hwrite⟩ := materialize_eq_ok_iff.mp hwritten
  have hc : c.WellFormed := hmerged ▸ hbase.merge hoverrides
  have htext : fs'.readText target = .ok (Yaml.print c.toDocument) :=
    FileSystem.readText_writeText hwrite
  have hconvert := Config.ofDocument_toDocument hc
  refine ⟨load_of_mapping htext hreads hconvert, fun hmap => ⟨.notMapping, ?_, rfl⟩⟩
  exact load_of_unloadable (.notMapping htext hreads hconvert hmap)

/-- A tree of leaves and keys that are easily taken for those of another kind. -/
def lookalikes : Config :=
  .mapOf [
    ("8", .list [.scalar .null, .scalar (.bool true), .scalar (.int 9223372036854775807),
      .scalar (.float 1.0), .scalar (.float (-0.0)), .scalar (.float (0.0 / 0.0))]),
    ("true", .mapOf [("", .scalar (.int 8)), ("~", .list [.str "null", .str "1.0", .list []])])]

theorem load_of_materialized_lookalikes :
    let overrides : Config := .mapOf [("true", .mapOf [("", .str "8")])]
    let c := lookalikes.merge overrides
    let items : Config := .list [.str "8"]
    (∃ fs', (ofConfig lookalikes).materialize overrides ⟨"p.yaml"⟩ ⟨[]⟩ = .ok (c, fs') ∧
      load fs' ⟨"p.yaml"⟩ = .ok ⟨⟨"p.yaml"⟩, c⟩) ∧
    (∃ fs', (ofConfig lookalikes).materialize items ⟨"p.yaml"⟩ ⟨[]⟩ = .ok (items, fs') ∧
      ∃ reason, load fs' ⟨"p.yaml"⟩ = .error (.configLoad ⟨"p.yaml"⟩ reason) ∧
        reason.message = "the top level is not a mapping") := by
  intro overrides c items
  have hbase : lookalikes.WellFormed := by
    simp [lookalikes, Config.wellFormed_mapOf, Scalar.Fits, Number.signedBound]
  have hoverrides : overrides.WellFormed := by simp [overrides, Config.wellFormed_mapOf]
  have hitems : items.WellFormed := by simp [items]
  have hwritten : (ofConfig lookalikes).materialize overrides ⟨"p.yaml"⟩ ⟨[]⟩ =
      .ok (c, ⟨[(["p.yaml"], .file c.documentText.toUTF8 false)]⟩) :=
    materialize_eq_ok_iff.mpr ⟨rfl, by decide +kernel⟩
  have hrefused : (ofConfig lookalikes).materialize items ⟨"p.yaml"⟩ ⟨[]⟩ =
      .ok (items, ⟨[(["p.yaml"], .file items.documentText.toUTF8 false)]⟩) :=
    materialize_eq_ok_iff.mpr ⟨rfl, by decide +kernel⟩
  refine ⟨⟨_, hwritten, ?_⟩, ⟨_, hrefused, ?_⟩⟩
  · exact (load_of_materialized hbase hoverrides hwritten (by decide +kernel)).1 rfl
  · exact (load_of_materialized hbase hitems hrefused (by decide +kernel)).2 rfl

end Template
end MappingSweep
