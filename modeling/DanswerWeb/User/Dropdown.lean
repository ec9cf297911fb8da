import DanswerWeb.Text.Uri

namespace DanswerWeb.User

open DanswerWeb.Text

/-- What `UserDropdown` reads of the signed-in user. -/
structure DropdownUser where
  /-- `user.role === UserRole.ADMIN`. -/
  isAdmin : Bool
  /-- `checkUserIsNoAuthUser(user.id)`. -/
  isNoAuthUser : Bool

/-- An item of `customNavItems`, with the fields its entry reads besides its icon. -/
structure NavigationItem where
  title : String
  link : String

/-- What a click on an entry does. -/
inductive DropdownAction
  | link (href : String) (openInNewTab : Bool)
  | push (url : String)
  | toggleUserSettings
  | showNotifications
  | handleLogout
  deriving DecidableEq

/-- An element of the popover. -/
inductive PopoverEntry
  /-- A `DropdownOption` and what a click on it does, `none` for nothing. -/
  | option (label : String) (action : Option DropdownAction)
  /-- The `border-t` line above Log out. -/
  | separator
  /-- The `Notifications` panel. -/
  | notifications
  deriving DecidableEq

/-- `DropdownOption`, lines 29 to 56: a `Link` for a truthy `href`, else a `div` with `onClick`. -/
def dropdownOption (label href : String) (openInNewTab : Bool) (onClick : Option DropdownAction) :
    PopoverEntry :=
  if href ≠ "" then .option label (some (.link href openInNewTab)) else .option label onClick

/-- What the popover of `UserDropdown` reads. -/
structure DropdownProps where
  /-- `page == "admin"`. -/
  adminPage : Bool
  /-- Whether `toggleUserSettings` is provided. -/
  toggleUserSettings : Bool
  hideUserDropdown : Bool
  user : Option DropdownUser
  isCurator : Bool
  customNavItems : List NavigationItem
  /-- The length of `notifications`, `none` while they load. -/
  notifications : Option Nat
  /-- `LOGOUT_DISABLED`. -/
  logoutDisabled : Bool
  /-- The `showNotifications` state. -/
  showNotifications : Bool

/-- `showAdminPanel`, line 117. -/
def showAdminPanel (props : DropdownProps) : Bool :=
  match props.user with
  | some user => user.isAdmin
  | none => true

/-- `showCuratorPanel`, line 119. -/
def showCuratorPanel (props : DropdownProps) : Bool :=
  props.user.isSome && props.isCurator

/-- `showLogout`, lines 120 and 121. -/
def showLogout (props : DropdownProps) : Bool :=
  match props.user with
  | some user => !user.isNoAuthUser && !props.logoutDisabled
  | none => false

/-- The entry of an item of `customNavItems`, lines 204 to 240. -/
def navItemEntry (item : NavigationItem) : PopoverEntry :=
  dropdownOption item.title item.link true none

def adminPanelEntry : PopoverEntry :=
  dropdownOption "Admin Panel" "/admin/indexing/status" false none

def curatorPanelEntry : PopoverEntry :=
  dropdownOption "Curator Panel" "/admin/indexing/status" false none

def userSettingsEntry : PopoverEntry :=
  dropdownOption "User Settings" "" false (some .toggleUserSettings)

/-- The label of the notifications entry, lines 272 to 276. -/
def notificationsLabel (notifications : Option Nat) : String :=
  "Notifications " ++ match notifications with
    | some count => if count > 0 then "(" ++ toString count ++ ")" else ""
    | none => ""

def logOutEntry : PopoverEntry :=
  dropdownOption "Log out" "" false (some .handleLogout)

/-- The menu, lines 204 to 292. -/
def menuEntries (props : DropdownProps) : List PopoverEntry :=
  props.customNavItems.map navItemEntry ++
    (if showAdminPanel props then [adminPanelEntry]
      else if showCuratorPanel props then [curatorPanelEntry] else []) ++
    (if props.toggleUserSettings then [userSettingsEntry] else []) ++
    [dropdownOption (notificationsLabel props.notifications) "" false (some .showNotifications)] ++
    (if showLogout props &&
        (showCuratorPanel props || showAdminPanel props || decide (props.customNavItems.length > 0))
      then [.separator] else []) ++
    (if showLogout props then [logOutEntry] else [])

/-- The popover, lines 190 to 294. -/
def popoverEntries (props : DropdownProps) : List PopoverEntry :=
  if !props.adminPage && props.showNotifications then [.notifications]
  else if props.hideUserDropdown then [dropdownOption "Log In" "" false (some (.push "/auth/login"))]
  else menuEntries props

/-- `currentUrl`, lines 105 to 107: the path, then `?` and nonempty search parameters. -/
def currentUrl (pathname : List Char) (searchParams : Option (List Char)) : List Char :=
  match searchParams with
  | some query => if query.isEmpty then pathname else pathname ++ '?' :: query
  | none => pathname

/-- What `handleLogout` does once `logout()` settles. -/
inductive LogoutEffect
  | alert (message : String)
  | push (url : List Char)
  deriving DecidableEq

/-- `handleLogout`, lines 97 to 115, given the result of `logout()`. -/
def handleLogout (isSuccess : Bool) (pathname : List Char) (searchParams : Option (List Char)) :
    LogoutEffect :=
  if !isSuccess then .alert "Failed to logout"
  else .push ("/auth/login?next=".toList ++ encodeURIComponent (currentUrl pathname searchParams))

/-- A logout pushes the login page whose `next` reads back the current page, or alerts. -/
theorem handleLogout_next (pathname : List Char) (searchParams : Option (List Char)) :
    handleLogout false pathname searchParams = .alert "Failed to logout" ∧
    ∃ url, handleLogout true pathname searchParams = .push url ∧
      url.takeWhile (· != '?') = "/auth/login".toList ∧
      searchParamsGet "next".toList (urlQuery url) = some (currentUrl pathname searchParams) := by
  refine ⟨rfl, _, rfl, rfl, ?_⟩
  set encoded := encodeURIComponent (currentUrl pathname searchParams)
  have unfragmented : ∀ c ∈ "next=".toList ++ encoded, (c != '#') = true := by
    simp only [List.mem_append]
    rintro c (mem | mem)
    · revert c
      decide
    · simpa using encodeURIComponent_ne '#' (by decide) (by decide) _ c mem
  have query : urlQuery ("/auth/login?next=".toList ++ encoded) =
      encodeURIComponent "next".toList ++ '=' :: encoded := by
    show List.takeWhile (· != '#') ("next=".toList ++ encoded) = _
    rw [List.takeWhile_eq_self_iff.mpr unfragmented]
    rfl
  rw [query]
  exact searchParamsGet_encoded "next".toList _

end DanswerWeb.User
