import DanswerWeb.Text.Regex
import DanswerWeb.Text.Number
import DanswerWeb.Text.Replace
import DanswerWeb.Text.Uri
import DanswerWeb.Message.Citation
import DanswerWeb.Message.CitationTwice
import DanswerWeb.Message.CodeBlock
import DanswerWeb.Message.FenceTag
import DanswerWeb.Message.Streaming
import DanswerWeb.Message.IncompleteCode
import DanswerWeb.Message.Revealer
import DanswerWeb.Message.Generation
import DanswerWeb.Message.Switcher
import DanswerWeb.Sidebar.Folders
import DanswerWeb.Sidebar.Reorder
import DanswerWeb.Sidebar.FolderActions
import DanswerWeb.User.Dropdown
