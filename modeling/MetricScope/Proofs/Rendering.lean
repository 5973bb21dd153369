import MetricScope.Proofs.Catalog.Overrides
import MetricScope.Proofs.Dashboard
import MetricScope.Proofs.Disk

/-!
# What a rendering leaves on the disk

No file is written before all enabled dashboards are built. From then on the dashboards are
written in the order of the catalog, each one completely, and the first that cannot be
written is the last that is tried. The tree thus holds the files of a prefix of the catalog
and is else as it was.
-/

set_option autoImplicit false

namespace MetricScope.Rendering

variable {folder : String}

def filePath (folder : String) (d : Dashboard) : Path :=
  Path.ofText folder ++ [d.name ++ ".json"]

theorem ofText_joinPath {name : String} (h : '/' ∉ name.toList) (hlength : 2 < name.length) :
    Path.ofText (joinPath folder name) = Path.ofText folder ++ [name] := by
  have hname : Path.segments [] name.toList = [name.toList] := Path.segments_of_not_mem h
  rw [joinPath]
  split
  -- nothing is put between the two: the folder has an empty last segment
  next hend =>
    rcases Bool.or_eq_true_iff.mp hend with hempty | hslash
    · obtain rfl := String.isEmpty_iff.mp hempty
      refine Path.ofText_of_segments [] ?_ (.inr rfl) hlength
      simpa using hname
    · obtain ⟨init, hinit⟩ := List.getLast?_eq_some_iff.mp (beq_iff_eq.mp hslash)
      refine Path.ofText_of_segments (Path.segments [] init) ?_ (.inr ?_) hlength
      · rw [String.toList_append, hinit, List.append_assoc, List.singleton_append,
          Path.segments_append_slash, hname]
      · rw [hinit, Path.segments_append_slash]
        rfl
  next =>
    refine Path.ofText_of_segments _ ?_ (.inl rfl) hlength
    have hslash : ("/" : String).toList = ['/'] := rfl
    rw [String.toList_append, String.toList_append, hslash, List.append_assoc,
      List.singleton_append, Path.segments_append_slash, hname]

/-- The file of a dashboard stands in the output folder. -/
theorem ofText_joinPath_ofDashboard {d : Dashboard} (h : '/' ∉ d.name.toList) :
    Path.ofText (joinPath folder (OutputFile.ofDashboard d).name) = filePath folder d := by
  have hsuffix : (".json" : String).toList = ['.', 'j', 's', 'o', 'n'] := rfl
  apply ofText_joinPath
  · simp [OutputFile.ofDashboard, hsuffix, h]
  · rw [OutputFile.ofDashboard, String.length_append]
    exact Nat.lt_add_left _ (by decide)

theorem name_eq_of_filePath_eq {d e : Dashboard} (h : filePath folder d = filePath folder e) :
    d.name = e.name := by
  have hfile : d.name ++ ".json" = e.name ++ ".json" :=
    List.singleton_inj.mp (List.append_cancel_left h)
  rw [← String.toList_inj] at hfile ⊢
  rw [String.toList_append, String.toList_append] at hfile
  exact List.append_cancel_right hfile

/-- No file of a dashboard stands above that of another one. -/
theorem eq_of_filePath_isPrefix {d e : Dashboard}
    (h : filePath folder d <+: filePath folder e) : filePath folder d = filePath folder e :=
  h.eq_of_length (by simp [filePath])

theorem not_filePath_isPrefix_folder (d : Dashboard) :
    ¬ filePath folder d <+: Path.ofText folder := by
  intro h
  have hle := h.length_le
  rw [filePath, List.length_append] at hle
  exact absurd hle (Nat.not_succ_le_self _)

/-- The bytes are the pretty text of the dashboard, and they are read as that dashboard. -/
structure IsFileOf (d : Dashboard) (bytes : ByteArray) : Prop where
  text : bytes = d.encode.pretty.toUTF8
  read : (String.fromUTF8? bytes).bind (Json.parseWith? Dashboard.decode?) = some d

theorem fromUTF8?_toUTF8 (text : String) : String.fromUTF8? text.toUTF8 = some text :=
  dif_pos text.isValidUTF8

theorem isFileOf_toUTF8 (d : Dashboard) : IsFileOf d d.encode.pretty.toUTF8 where
  text := rfl
  read := by
    rw [fromUTF8?_toUTF8, Option.bind_some]
    exact Dashboard.readsBack.pretty d

/-- Of all files, `after` holds those of the dashboards `written`, and else those of
`before`. -/
structure Wrote (folder : String) (before after : Disk ByteArray)
    (written : List Dashboard) : Prop where
  complete : ∀ d ∈ written, ∃ bytes, after.file? (filePath folder d) = some bytes ∧ IsFileOf d bytes
  others : ∀ path ∉ written.map (filePath folder), after.file? path = before.file? path

/-- Why no file of the dashboards in the list is written, and the exit code: none is left,
or a folder stands where the first is to be written. -/
inductive Stops (folder : String) (disk : Disk ByteArray) :
    List Dashboard → Option (Halt Failure) → Nat → Prop
  | done : Stops folder disk [] none 0
  | write {d : Dashboard} {rest : List Dashboard}
      (hfolder : disk.isFolder (filePath folder d) = true) :
      Stops folder disk (d :: rest)
        (some (.failed (.write (joinPath folder (d.name ++ ".json")) DiskFault.isFolder.message)))
        1

theorem Stops.of_isFolder_eq {before middle : Disk ByteArray} {rest : List Dashboard}
    {halt : Option (Halt Failure)} {code : Nat}
    (hsame : ∀ d, middle.isFolder (filePath folder d) = before.isFolder (filePath folder d))
    (h : Stops folder middle rest halt code) : Stops folder before rest halt code := by
  cases h with
  | done => exact .done
  | write hfolder => exact .write (hsame _ ▸ hfolder)

theorem wrote_nil (disk : Disk ByteArray) : Wrote folder disk disk [] where
  complete := by simp
  others := by simp

theorem Wrote.cons {before middle after : Disk ByteArray} {d : Dashboard}
    {written : List Dashboard}
    (hwrite : before.writeFile (filePath folder d) d.encode.pretty.toUTF8 = .ok middle)
    (hnot : filePath folder d ∉ written.map (filePath folder))
    (h : Wrote folder middle after written) : Wrote folder before after (d :: written) where
  complete := by
    rw [List.forall_mem_cons]
    refine ⟨?_, h.complete⟩
    rw [h.others _ hnot]
    exact ⟨_, Disk.file?_writeFile hwrite, isFileOf_toUTF8 d⟩
  others := by
    intro path hpath
    rw [List.map_cons, List.mem_cons, not_or] at hpath
    rw [h.others path hpath.2, Disk.file?_writeFile_of_ne hwrite hpath.1]

theorem run_writeAll_cons (file : OutputFile) (rest : List OutputFile) (disk : Disk ByteArray) :
    (writeAll onDisk folder (file :: rest)).run disk =
      match disk.writeFile (Path.ofText (joinPath folder file.name)) file.content.toUTF8 with
      | .ok disk => (writeAll onDisk folder rest).run disk
      | .error fault =>
        (some (.failed (.write (joinPath folder file.name) fault.message)), disk) := by
  rw [writeAll, StateT.run_bind]
  simp only [onDisk, change, StateT.run]
  cases disk.writeFile (Path.ofText (joinPath folder file.name)) file.content.toUTF8 <;> rfl

/-- The files that are written are those of a first part of the list. -/
theorem exists_wrote {ds : List Dashboard} {disk after : Disk ByteArray}
    {halt : Option (Halt Failure)} (hnames : (ds.map Dashboard.name).Nodup)
    (hslash : ∀ d ∈ ds, '/' ∉ d.name.toList)
    (hrun : (writeAll onDisk folder (ds.map OutputFile.ofDashboard)).run disk =
      (halt, after)) :
    ∃ written rest, ds = written ++ rest ∧
      (∀ d ∈ written, disk.isFolder (filePath folder d) = false) ∧
      Wrote folder disk after written ∧ Stops folder disk rest halt (exitCode halt) := by
  induction ds generalizing disk with
  | nil =>
    obtain ⟨rfl, rfl⟩ := Prod.mk.inj hrun
    exact ⟨[], [], rfl, List.forall_mem_nil _, wrote_nil _, .done⟩
  | cons d ds ih =>
    obtain ⟨hd, hds⟩ := List.forall_mem_cons.mp hslash
    obtain ⟨hnew, hnames⟩ := List.nodup_cons.mp hnames
    rw [List.map_cons, run_writeAll_cons, ofText_joinPath_ofDashboard hd] at hrun
    cases hwrite : disk.writeFile (filePath folder d) d.encode.pretty.toUTF8 with
    | error fault =>
      obtain ⟨hfolder, rfl⟩ := Disk.writeFile_eq_error hwrite
      rw [OutputFile.ofDashboard, hwrite] at hrun
      obtain ⟨rfl, rfl⟩ := Prod.mk.inj hrun
      exact ⟨[], d :: ds, rfl, List.forall_mem_nil _, wrote_nil _, .write hfolder⟩
    | ok middle =>
      rw [OutputFile.ofDashboard, hwrite] at hrun
      -- the rest was written on `middle`, in which the same paths are folders
      obtain ⟨written, rest, rfl, hfree, hwrote, hstops⟩ := ih hnames hds hrun
      have hsame (e : Dashboard) :
          middle.isFolder (filePath folder e) = disk.isFolder (filePath folder e) :=
        Disk.isFolder_writeFile_of_not_above hwrite eq_of_filePath_isPrefix
      have hnot : filePath folder d ∉ written.map (filePath folder) := by
        intro hmem
        obtain ⟨e, he, heq⟩ := List.mem_map.mp hmem
        apply hnew
        rw [← name_eq_of_filePath_eq heq]
        exact List.mem_map_of_mem (List.mem_append_left rest he)
      refine ⟨d :: written, rest, rfl, ?_, hwrote.cons hwrite hnot,
        hstops.of_isFolder_eq hsame⟩
      rw [List.forall_mem_cons]
      exact ⟨(Disk.writeFile_eq_ok hwrite).1, fun e he => hsame e ▸ hfree e he⟩

structure Built (content : FileContent) (config : Config) (ctx : Catalog.Context)
    (built : List Dashboard) : Prop where
  load : Config.load content = .ok config
  context : Catalog.Context.ofConfig config = .ok ctx
  build : Catalog.build ctx config.dashboards = .ok built
  names : built.map Dashboard.name =
    (Catalog.blueprints config.dashboards).map Catalog.Blueprint.name
  distinct : (built.map Dashboard.name).Nodup

/-- How a rendering ends: the tree afterwards, what has stopped the rendering, and the exit
code. -/
inductive Ends (configPath folder : String) (before : Disk ByteArray) :
    Disk ByteArray → Option (Halt Failure) → Nat → Prop
  | load {cause : Error} (hload : Config.load (contentAt before configPath) = .error cause) :
      Ends configPath folder before before (some (.failed (.load configPath cause))) 1
  | overrides {config : Config} {cause : Error}
      (hload : Config.load (contentAt before configPath) = .ok config)
      (hcontext : Catalog.Context.ofConfig config = .error cause) :
      Ends configPath folder before before (some (.failed (.overrides cause))) 1
  | build {config : Config} {ctx : Catalog.Context} {cause : Error}
      (hload : Config.load (contentAt before configPath) = .ok config)
      (hcontext : Catalog.Context.ofConfig config = .ok ctx)
      (hbuild : Catalog.build ctx config.dashboards = .error (.failed cause)) :
      Ends configPath folder before before (some (.failed (.build cause))) 1
  | crash {config : Config} {ctx : Catalog.Context}
      (hload : Config.load (contentAt before configPath) = .ok config)
      (hcontext : Catalog.Context.ofConfig config = .ok ctx)
      (hbuild : Catalog.build ctx config.dashboards = .error .crashed) :
      Ends configPath folder before before (some .crashed) 101
  | createFolder {config : Config} {ctx : Catalog.Context} {built : List Dashboard}
      {fault : DiskFault} (hbuilt : Built (contentAt before configPath) config ctx built)
      (hmake : before.makeFolder (Path.ofText folder) = .error fault) :
      Ends configPath folder before before (some (.failed (.createFolder folder fault.message))) 1
  | written {config : Config} {ctx : Catalog.Context} {written rest : List Dashboard}
      {made after : Disk ByteArray} {halt : Option (Halt Failure)} {code : Nat}
      (hbuilt : Built (contentAt before configPath) config ctx (written ++ rest))
      (hmake : before.makeFolder (Path.ofText folder) = .ok made)
      (hfree : ∀ d ∈ written, before.isFolder (filePath folder d) = false)
      (hwrote : Wrote folder before after written)
      (hstops : Stops folder before rest halt code) :
      Ends configPath folder before after halt code

section

variable {configPath : String} {disk : Disk ByteArray}

theorem run_render : (render onDisk configPath folder).run disk =
    match dashboards configPath (contentAt disk configPath) with
    | .error halt => (some halt, disk)
    | .ok built =>
      match disk.makeFolder (Path.ofText folder) with
      | .error fault => (some (.failed (.createFolder folder fault.message)), disk)
      | .ok made => (writeAll onDisk folder (built.map OutputFile.ofDashboard)).run made := by
  have hread : (onDisk.read configPath).run disk = pure (contentAt disk configPath, disk) := rfl
  rw [render, StateT.run_bind, hread, pure_bind]
  cases dashboards configPath (contentAt disk configPath) with
  | error halt => rfl
  | ok built =>
    dsimp only
    rw [StateT.run_bind]
    simp only [onDisk, change, StateT.run]
    cases disk.makeFolder (Path.ofText folder) <;> rfl

theorem built_of_build {content : FileContent} {config : Config} {ctx : Catalog.Context}
    {built : List Dashboard} (hload : Config.load content = .ok config)
    (hcontext : Catalog.Context.ofConfig config = .ok ctx)
    (hbuild : Catalog.build ctx config.dashboards = .ok built) :
    Built content config ctx built where
  load := hload
  context := hcontext
  build := hbuild
  names := Catalog.map_name_of_build hbuild
  distinct := Catalog.map_name_of_build hbuild ▸ Catalog.nodup_names config.dashboards

/-- Where nothing is built, nothing is written. -/
theorem run_of_error {halt : Halt Failure}
    (h : dashboards configPath (contentAt disk configPath) = .error halt) :
    run configPath folder disk = (disk, some halt) := by
  have hrun : Id.run ((render onDisk configPath folder).run disk) = (some halt, disk) := by
    rw [run_render, h]
    rfl
  rw [run, hrun]

theorem dashboards_of_error {content : FileContent} {config : Config} {ctx : Catalog.Context}
    {halt : Halt Error} (hload : Config.load content = .ok config)
    (hcontext : Catalog.Context.ofConfig config = .ok ctx)
    (hbuild : Catalog.build ctx config.dashboards = .error halt) :
    dashboards configPath content = .error (halt.map .build) := by
  simp only [dashboards, hload, hcontext, hbuild]

/-- After everything is built, only the output folder and the files in it can fail. -/
theorem ends_of_built {config : Config} {ctx : Catalog.Context} {built : List Dashboard}
    {halt : Option (Halt Failure)} {after : Disk ByteArray}
    (hbuilt : Built (contentAt disk configPath) config ctx built)
    (hrun : (match disk.makeFolder (Path.ofText folder) with
      | .error fault => (some (.failed (.createFolder folder fault.message)), disk)
      | .ok made => (writeAll onDisk folder (built.map OutputFile.ofDashboard)).run made) =
        (halt, after)) :
    Ends configPath folder disk after halt (exitCode halt) := by
  cases hmake : disk.makeFolder (Path.ofText folder) with
  | error fault =>
    rw [hmake] at hrun
    obtain ⟨rfl, rfl⟩ := Prod.mk.inj hrun
    exact .createFolder hbuilt hmake
  | ok made =>
    rw [hmake] at hrun
    have hsame (d : Dashboard) :
        made.isFolder (filePath folder d) = disk.isFolder (filePath folder d) :=
      Disk.isFolder_makeFolder_of_not_prefix hmake (not_filePath_isPrefix_folder d)
    have hslash : ∀ d ∈ built, '/' ∉ d.name.toList := by
      intro d hd
      apply Catalog.slash_not_mem_name
      rw [← hbuilt.names]
      exact List.mem_map_of_mem hd
    obtain ⟨written, rest, rfl, hfree, hwrote, hstops⟩ := exists_wrote hbuilt.distinct hslash hrun
    refine .written hbuilt hmake (fun d hd => hsame d ▸ hfree d hd) ⟨hwrote.complete, ?_⟩
      (hstops.of_isFolder_eq hsame)
    intro path hpath
    rw [hwrote.others path hpath, Disk.file?_makeFolder hmake]

end

/-- A rendering writes nothing unless every enabled dashboard is built, and then all
dashboards or those in front of the first that cannot be written. The exit code is 0 if all
are written, 1 after a failure, and 101 if the build crashes. -/
theorem run_ends (configPath folder : String) (disk : Disk ByteArray) :
    Ends configPath folder disk (run configPath folder disk).1 (run configPath folder disk).2
      (exitCode (run configPath folder disk).2) := by
  cases hload : Config.load (contentAt disk configPath) with
  | error cause =>
    have hdashboards : dashboards configPath (contentAt disk configPath) =
        .error (.failed (.load configPath cause)) := by
      rw [dashboards, hload]
    rw [run_of_error hdashboards]
    exact .load hload
  | ok config =>
    cases hcontext : Catalog.Context.ofConfig config with
    | error cause =>
      have hdashboards : dashboards configPath (contentAt disk configPath) =
          .error (.failed (.overrides cause)) := by
        simp only [dashboards, hload, hcontext]
      rw [run_of_error hdashboards]
      exact .overrides hload hcontext
    | ok ctx =>
      cases hbuild : Catalog.build ctx config.dashboards with
      | error halt =>
        rw [run_of_error (dashboards_of_error hload hcontext hbuild)]
        cases halt with
        | failed cause => exact .build hload hcontext hbuild
        | crashed => exact .crash hload hcontext hbuild
      | ok built =>
        rcases hrun : Id.run ((render onDisk configPath folder).run disk) with ⟨halt, after⟩
        have hresult : run configPath folder disk = (after, halt) := by rw [run, hrun]
        rw [hresult]
        simp only [run_render, dashboards, hload, hcontext, hbuild] at hrun
        exact ends_of_built (built_of_build hload hcontext hbuild) hrun

def liveTracesDisk (text : String) : Disk ByteArray :=
  ⟨[(["promdash.toml"],
    ("[overrides]\n\"tempo.live_traces\" = \"" ++ text ++ "\"\n").toUTF8)], []⟩

/-- The configuration is accepted and its override applied. The build crashes, and so does the
rendering, with another exit code than after a failure. -/
theorem run_crashes_liveTraces :
    ∃ config ctx, Config.load (contentAt (liveTracesDisk "m[1e30]") "promdash.toml") = .ok config ∧
      Catalog.Context.ofConfig config = .ok ctx ∧
      (∀ built, Catalog.build ctx config.dashboards ≠ .ok built) ∧
      exitCode (run "promdash.toml" "out" (liveTracesDisk "m[1e30]")).2 ≠ 1 ∧
      run "promdash.toml" "out" (liveTracesDisk "m[1e30]") =
        (liveTracesDisk "m[1e30]", some .crashed) := by
  have hread : Config.ofToml
      ("[overrides]\n\"tempo.live_traces\" = \"" ++ "m[1e30]" ++ "\"\n") =
      .ok { Config.standard with overrides := [("tempo.live_traces", "m[1e30]")] } := by
    decide +kernel
  have hload : Config.load (contentAt (liveTracesDisk "m[1e30]") "promdash.toml") =
      .ok { Config.standard with overrides := [("tempo.live_traces", "m[1e30]")] } := by
    have hcontent : contentAt (liveTracesDisk "m[1e30]") "promdash.toml" =
        .bytes ("[overrides]\n\"tempo.live_traces\" = \"" ++ "m[1e30]" ++ "\"\n").toUTF8 := rfl
    simp only [hcontent, Config.load, fromUTF8?_toUTF8, hread]
  have hlookup : "tempo.live_traces" ∈ Catalog.lookups .every := by decide +kernel
  obtain ⟨⟨_, text⟩, hmem, rfl⟩ : ∃ p ∈ Catalog.defaultQueries, p.1 = "tempo.live_traces" := by
    decide +kernel
  obtain ⟨r, hr, hget⟩ := Registry.exists_override (Catalog.get_defaultRegistry _ hmem) "m[1e30]"
  have hcontext : Catalog.Context.ofConfig
      { Config.standard with overrides := [("tempo.live_traces", "m[1e30]")] } =
        .ok { Catalog.Context.ofClusterLabel "cluster" with registry := r } := by
    have hfirst : (Catalog.registerDefaults .empty).override "tempo.live_traces" "m[1e30]" =
        .ok r := hr
    rw [Catalog.Context.ofConfig, List.foldlM_cons]
    simp only [hfirst, List.foldlM_nil]
    rfl
  have hcrash : Query.parse "m[1e30]" = .error .crashed := by
    rw [← Catalog.ending_eq_error_iff]
    decide +kernel
  have hbuild : Catalog.build { Catalog.Context.ofClusterLabel "cluster" with registry := r }
      .every = .error .crashed :=
    Catalog.build_crashes_of_override hr hget hcrash hlookup
  have hrun : run "promdash.toml" "out" (liveTracesDisk "m[1e30]") =
      (liveTracesDisk "m[1e30]", some .crashed) :=
    run_of_error (dashboards_of_error hload hcontext hbuild)
  refine ⟨_, _, hload, hcontext, ?_, ?_, hrun⟩
  · intro built h
    exact absurd (hbuild.symm.trans h) (by simp)
  · rw [hrun]
    decide

end MetricScope.Rendering
