import DanswerWeb.Sidebar.Folders
import Mathlib.Data.List.Sort

namespace DanswerWeb.Sidebar

/-- A folder once its `display_priority` is the rank a priority map holds for its id. -/
def withDisplayPriorities (priorities : Int → Option Nat) (folder : Folder) : Folder :=
  { folder with displayPriority := (folder.folderId.bind priorities).map Int.ofNat }

@[simp]
theorem withDisplayPriorities_folderId (priorities : Int → Option Nat) (folder : Folder) :
    (withDisplayPriorities priorities folder).folderId = folder.folderId :=
  rfl

/-- One drag: `handleDragEnd`, the ranks handed to `reorderFolders`, and the next render's sort. -/
def dragStep (folders : List Folder) (event : DragEndEvent) : List Folder :=
  match handleDragEnd (some folders) event with
  | [_, .reorderFolders priorities] =>
    sortByDisplayPriority (folders.map (withDisplayPriorities priorities))
  | _ => folders

/-- The sort shows a permutation in the one order along which priorities strictly increase. -/
theorem sortByDisplayPriority_eq_of_strict {folders order : List Folder}
    (perm : folders.Perm order)
    (strict : order.Pairwise fun a b => a.displayPriority.getD 0 < b.displayPriority.getD 0) :
    sortByDisplayPriority folders = order := by
  haveI : IsAntisymm Folder fun a b => a.displayPriority.getD 0 < b.displayPriority.getD 0 :=
    ⟨fun _ _ up down => absurd (up.trans down) (lt_irrefl _)⟩
  have sorted := @List.sorted_mergeSort Folder
    (fun a b => decide (a.displayPriority.getD 0 ≤ b.displayPriority.getD 0))
    (fun _ _ _ ab bc => decide_eq_true (le_trans (of_decide_eq_true ab) (of_decide_eq_true bc)))
    (fun a b => by simpa using le_total (a.displayPriority.getD 0) (b.displayPriority.getD 0))
    folders
  have shown : (sortByDisplayPriority folders).Perm order := (List.mergeSort_perm folders _).trans perm
  have distinct : (order.map fun folder => folder.displayPriority.getD 0).Nodup :=
    List.Sorted.nodup (List.pairwise_map.mpr strict)
  have keys : List.Sorted (· ≤ ·)
      ((sortByDisplayPriority folders).map fun folder => folder.displayPriority.getD 0) :=
    List.pairwise_map.mpr (sorted.imp of_decide_eq_true)
  exact List.eq_of_perm_of_sorted shown
    (List.pairwise_map.mp (keys.lt_of_le ((shown.map _).nodup_iff.mpr distinct))) strict

theorem map_bind_eq_filterMap {order : List Folder} {rank : Folder → Option Nat}
    (ranked : ∀ folder ∈ order, (rank folder).isSome) :
    order.map (fun folder => (rank folder).map Int.ofNat) =
      (order.filterMap rank).map fun i : Nat => some (i : Int) := by
  induction order with
  | nil => rfl
  | cons folder order ih =>
    obtain ⟨i, named⟩ := Option.isSome_iff_exists.mp (ranked folder (List.mem_cons_self _ _))
    simp [named, ih fun other mem => ranked other (List.mem_cons_of_mem _ mem)]

/-- Written into the folders of an order, its ranks are the positions. -/
theorem displayPriority_withDisplayPriorities {order : List Folder}
    (defined : ∀ folder ∈ order, folder.folderId.isSome)
    (distinct : (order.map Folder.folderId).Nodup) :
    (order.map (withDisplayPriorities (displayPriorityMap order))).map Folder.displayPriority =
      (List.range order.length).map fun i : Nat => some (i : Int) := by
  have ranked : ∀ folder ∈ order, (folder.folderId.bind (displayPriorityMap order)).isSome :=
    fun folder mem => by
      obtain ⟨id, named⟩ := Option.isSome_iff_exists.mp (defined folder mem)
      simpa [named, displayPriorityMap_isSome] using List.mem_map_of_mem Folder.folderId mem
  rw [List.map_map, ← displayPriorityMap_ranks defined distinct, ← map_bind_eq_filterMap ranked]
  rfl

/-- A drop of the folder at `a` onto another at `b` shows the moved order with its ranks. -/
theorem dragStep_of_found (list : FolderList) {event : DragEndEvent} {a b : Nat}
    {dragged target : Folder} (atA : list.folders[a]? = some dragged)
    (atB : list.folders[b]? = some target) (active : folderIdText dragged = some event.active)
    (over : folderIdText target = event.over) (differ : some event.active ≠ event.over) :
    dragStep list.folders event = (arrayMove list.folders a b).map
      (withDisplayPriorities (displayPriorityMap (arrayMove list.folders a b))) := by
  obtain ⟨defined, distinct⟩ := arrayMove_ids list atA atB
  have strict : ((arrayMove list.folders a b).map
      (withDisplayPriorities (displayPriorityMap (arrayMove list.folders a b)))).Pairwise
      fun a b => a.displayPriority.getD 0 < b.displayPriority.getD 0 := by
    have increasing : ((List.range (arrayMove list.folders a b).length).map
        fun i : Nat => some (i : Int)).Pairwise fun p q => p.getD 0 < q.getD 0 :=
      List.pairwise_map.mpr ((List.pairwise_lt_range _).imp fun lt => by simpa using lt)
    rw [← displayPriority_withDisplayPriorities defined distinct] at increasing
    exact (List.pairwise_map.mp increasing).imp id
  rw [dragStep, handleDragEnd_of_found list atA atB active over differ]
  exact sortByDisplayPriority_eq_of_strict
    ((arrayMove_perm atA (List.getElem?_eq_some_iff.mp atB).1).symm.map _) strict

/-- A drop of `a` onto another `b` shows `a` moved to `b`, positions as priorities. -/
theorem dragStep_shows_move (list : FolderList) (event : DragEndEvent) (a b : Nat)
    (dragged target : Folder) (atA : list.folders[a]? = some dragged)
    (atB : list.folders[b]? = some target) (active : folderIdText dragged = some event.active)
    (over : folderIdText target = event.over) (differ : some event.active ≠ event.over) :
    dragStep list.folders event = (arrayMove list.folders a b).map
      (withDisplayPriorities (displayPriorityMap (arrayMove list.folders a b))) ∧
    (dragStep list.folders event).map Folder.displayPriority =
      (List.range list.folders.length).map fun i : Nat => some (i : Int) := by
  have shown := dragStep_of_found list atA atB active over differ
  obtain ⟨defined, distinct⟩ := arrayMove_ids list atA atB
  refine ⟨shown, ?_⟩
  rw [shown, displayPriority_withDisplayPriorities defined distinct,
    (arrayMove_perm atA (List.getElem?_eq_some_iff.mp atB).1).length_eq]

theorem dragStep_shows_move_last_first :
    [(⟨some 7, some 0⟩ : Folder), ⟨some 8, some 1⟩, ⟨some 9, some 2⟩][2]? = some ⟨some 9, some 2⟩ ∧
    [(⟨some 7, some 0⟩ : Folder), ⟨some 8, some 1⟩, ⟨some 9, some 2⟩][0]? = some ⟨some 7, some 0⟩ ∧
    folderIdText ⟨some 9, some 2⟩ = some "9" ∧ folderIdText ⟨some 7, some 0⟩ = some "7" ∧
    some "9" ≠ some "7" ∧
    dragStep [⟨some 7, some 0⟩, ⟨some 8, some 1⟩, ⟨some 9, some 2⟩] ⟨"9", some "7"⟩ =
      [⟨some 9, some 0⟩, ⟨some 7, some 1⟩, ⟨some 8, some 2⟩] :=
  ⟨rfl, rfl, by decide, by decide, by decide,
    (dragStep_shows_move ⟨[⟨some 7, some 0⟩, ⟨some 8, some 1⟩, ⟨some 9, some 2⟩], by decide,
      by decide⟩ ⟨"9", some "7"⟩ 2 0 ⟨some 9, some 2⟩ ⟨some 7, some 0⟩ rfl rfl (by decide)
      (by decide) (by decide)).1.trans rfl⟩

/-- A drag shows the folders it was given, in some order: it loses and duplicates none. -/
theorem dragStep_ids (folders : List Folder) (event : DragEndEvent) :
    ((dragStep folders event).map Folder.folderId).Perm (folders.map Folder.folderId) := by
  rcases handleDragEnd_cases folders event with unmoved | ⟨a, b, -, -, moved⟩
  · rw [dragStep, unmoved]
  · rw [dragStep, moved]
    simpa [Function.comp_def] using
      (List.mergeSort_perm (folders.map (withDisplayPriorities _)) _).map Folder.folderId

/-- The sidebar's folders after a drag, still a folder list. -/
def FolderList.drag (list : FolderList) (event : DragEndEvent) : FolderList where
  folders := dragStep list.folders event
  defined folder mem := by
    obtain ⟨other, mem', same⟩ := List.mem_map.mp
      ((dragStep_ids list.folders event).subset (List.mem_map_of_mem Folder.folderId mem))
    exact same ▸ list.defined other mem'
  distinct := (dragStep_ids list.folders event).nodup_iff.mpr list.distinct

/-- The sidebar's folders after a run of drags. -/
def FolderList.dragAll (list : FolderList) (events : List DragEndEvent) : FolderList :=
  events.foldl FolderList.drag list

/-- What a drop does to the ids of the folders as shown. -/
def moveId (ids : List (Option Int)) (event : DragEndEvent) : List (Option Int) :=
  if some event.active ≠ event.over then
    match ids.findIdx? (fun id => id.map toString = some event.active),
      ids.findIdx? (fun id => id.map toString = event.over) with
    | some oldIndex, some newIndex => arrayMove ids oldIndex newIndex
    | _, _ => ids
  else ids

theorem findIdx?_map_folderId (folders : List Folder) (text : Option String) :
    (folders.map Folder.folderId).findIdx? (fun id => id.map toString = text) =
      folders.findIdx? (fun folder => folderIdText folder = text) := by
  rw [List.findIdx?_map]
  rfl

/-- One drop on the sidebar moves the shown ids as `moveId` does. -/
theorem dragStep_refines_moveId (list : FolderList) (event : DragEndEvent) :
    (dragStep list.folders event).map Folder.folderId =
      moveId (list.folders.map Folder.folderId) event := by
  by_cases differ : some event.active ≠ event.over
  · rw [moveId, if_pos differ, findIdx?_map_folderId, findIdx?_map_folderId]
    cases foundA : list.folders.findIdx? (fun folder => folderIdText folder = some event.active) with
    | none => simp only [dragStep, handleDragEnd, if_pos differ, foundA]
    | some a =>
      cases foundB : list.folders.findIdx? (fun folder => folderIdText folder = event.over) with
      | none => simp only [dragStep, handleDragEnd, if_pos differ, foundA, foundB]
      | some b =>
        obtain ⟨belowA, activeA, -⟩ := List.findIdx?_eq_some_iff_getElem.mp foundA
        obtain ⟨belowB, overB, -⟩ := List.findIdx?_eq_some_iff_getElem.mp foundB
        rw [dragStep_of_found list (List.getElem?_eq_getElem belowA)
          (List.getElem?_eq_getElem belowB) (of_decide_eq_true activeA) (of_decide_eq_true overB)
          differ, List.map_map]
        exact (arrayMove_map Folder.folderId list.folders a b).symm
  · simp only [dragStep, handleDragEnd, moveId, if_neg differ]

/-- Over any run of drops the sidebar shows its folders in the order `moveId` gives. -/
theorem dragAll_refines (list : FolderList) (events : List DragEndEvent) :
    (list.dragAll events).folders.map Folder.folderId =
      events.foldl moveId (list.folders.map Folder.folderId) := by
  induction events generalizing list with
  | nil => rfl
  | cons event events ih =>
    rw [List.foldl_cons, ← dragStep_refines_moveId]
    exact ih (list.drag event)

end DanswerWeb.Sidebar
