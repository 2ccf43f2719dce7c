import AngularAtlas.Census
import AngularAtlas.CommandLine.Command
import AngularAtlas.CommandLine.Parser
import AngularAtlas.CommandLine.Program
import AngularAtlas.CommandLine.Reports
import AngularAtlas.CommandLine.Session
import AngularAtlas.CommandLine.SettingsCommands
import AngularAtlas.Component.Basic
import AngularAtlas.Component.Hierarchy
import AngularAtlas.Decimal.Float
import AngularAtlas.Decimal.Shortest
import AngularAtlas.Export.Dgml
import AngularAtlas.Export.Dot
import AngularAtlas.Export.Network
import AngularAtlas.Export.Report
import AngularAtlas.Export.Style
import AngularAtlas.FileTree
import AngularAtlas.Graph.Basic
import AngularAtlas.Graph.Build
import AngularAtlas.Graph.Components
import AngularAtlas.Graph.Layout
import AngularAtlas.Issue
import AngularAtlas.Json.Dotted
import AngularAtlas.Json.Literal
import AngularAtlas.Json.Reader
import AngularAtlas.Json.Value
import AngularAtlas.Main
import AngularAtlas.Package
import AngularAtlas.Path
import AngularAtlas.Project
import AngularAtlas.Proofs.Census
import AngularAtlas.Proofs.Checked.Brackets
import AngularAtlas.Proofs.Checked.Classes
import AngularAtlas.Proofs.Checked.Components
import AngularAtlas.Proofs.Checked.Routes
import AngularAtlas.Proofs.CommandLine.AllReports
import AngularAtlas.Proofs.CommandLine.Listing
import AngularAtlas.Proofs.CommandLine.Origins
import AngularAtlas.Proofs.CommandLine.ReportKinds
import AngularAtlas.Proofs.CommandLine.Writing
import AngularAtlas.Proofs.Distinct
import AngularAtlas.Proofs.Export.Categories
import AngularAtlas.Proofs.Export.Document
import AngularAtlas.Proofs.Export.Identifiers
import AngularAtlas.Proofs.Export.Markup
import AngularAtlas.Proofs.Export.ModuleTables
import AngularAtlas.Proofs.FileTree.Growth
import AngularAtlas.Proofs.FileTree.Places
import AngularAtlas.Proofs.FileTree.Proper
import AngularAtlas.Proofs.FileTree.Reading
import AngularAtlas.Proofs.FileTree.Steps
import AngularAtlas.Proofs.Graph.ComponentLinks
import AngularAtlas.Proofs.Graph.Components
import AngularAtlas.Proofs.Graph.History
import AngularAtlas.Proofs.Graph.Injection
import AngularAtlas.Proofs.Graph.Modules
import AngularAtlas.Proofs.Graph.Placing
import AngularAtlas.Proofs.Graph.Representation
import AngularAtlas.Proofs.Graph.Requests
import AngularAtlas.Proofs.Hierarchy.Consistency
import AngularAtlas.Proofs.Hierarchy.Link
import AngularAtlas.Proofs.Hierarchy.RouteLinks
import AngularAtlas.Proofs.Hierarchy.RouterHost
import AngularAtlas.Proofs.Hierarchy.Routing
import AngularAtlas.Proofs.Hierarchy.TemplateLinks
import AngularAtlas.Proofs.Hierarchy.TemplateUses
import AngularAtlas.Proofs.Hierarchy.Walk
import AngularAtlas.Proofs.Json.Leaves
import AngularAtlas.Proofs.Package.Additions
import AngularAtlas.Proofs.Package.Names
import AngularAtlas.Proofs.Package.Versions
import AngularAtlas.Proofs.Project.Additions
import AngularAtlas.Proofs.Settings.Layers
import AngularAtlas.Proofs.Settings.Merge
import AngularAtlas.Proofs.Settings.Names
import AngularAtlas.Proofs.Settings.Saving
import AngularAtlas.Proofs.Settings.Sources
import AngularAtlas.Proofs.Source.ClassLists
import AngularAtlas.Proofs.Source.ClosingBracket
import AngularAtlas.Proofs.Source.Constructor
import AngularAtlas.Proofs.Source.DecoratedMember
import AngularAtlas.Proofs.Source.DecoratedParameter
import AngularAtlas.Proofs.Source.Elements
import AngularAtlas.Proofs.Source.Literal
import AngularAtlas.Proofs.Source.Metadata
import AngularAtlas.Proofs.Source.MetadataEntry
import AngularAtlas.Proofs.Source.ModuleOutcomes
import AngularAtlas.Proofs.Source.ModuleTexts
import AngularAtlas.Proofs.Source.Nesting
import AngularAtlas.Proofs.Source.OuterColon
import AngularAtlas.Proofs.Source.Parameter
import AngularAtlas.Proofs.Source.ParameterReading
import AngularAtlas.Proofs.Source.Preorder
import AngularAtlas.Proofs.Source.Provision
import AngularAtlas.Proofs.Source.RouteCount
import AngularAtlas.Proofs.Source.RouteLiteral
import AngularAtlas.Proofs.Source.RouteTable
import AngularAtlas.Proofs.Source.RouteValue
import AngularAtlas.Proofs.Source.SectionPlace
import AngularAtlas.Proofs.Source.SectionSearch
import AngularAtlas.Proofs.Source.TableStart
import AngularAtlas.Proofs.Text.ByteOrder
import AngularAtlas.Proofs.Text.Comment
import AngularAtlas.Proofs.Text.CommentLines
import AngularAtlas.Proofs.Text.Finds
import AngularAtlas.Proofs.Text.Gap
import AngularAtlas.Proofs.Text.Lexing
import AngularAtlas.Proofs.Text.Search
import AngularAtlas.Proofs.Text.Spacing
import AngularAtlas.Proofs.Text.Squeeze
import AngularAtlas.Proofs.Text.Word
import AngularAtlas.Proofs.Workspace.Listing
import AngularAtlas.Proofs.Workspace.Rescan
import AngularAtlas.Proofs.Workspace.RoutingFiles
import AngularAtlas.Settings.Basic
import AngularAtlas.Settings.Files
import AngularAtlas.Settings.Origin
import AngularAtlas.Settings.Reader
import AngularAtlas.Settings.Schema
import AngularAtlas.Settings.View
import AngularAtlas.Settings.Writer
import AngularAtlas.Source.Bracket
import AngularAtlas.Source.DecoratedClass
import AngularAtlas.Source.Import
import AngularAtlas.Source.Injection
import AngularAtlas.Source.Member
import AngularAtlas.Source.NgModule
import AngularAtlas.Source.Property
import AngularAtlas.Source.Route
import AngularAtlas.Source.Section
import AngularAtlas.Table
import AngularAtlas.Text.Basename
import AngularAtlas.Text.Blank
import AngularAtlas.Text.Case
import AngularAtlas.Text.CaseTable
import AngularAtlas.Text.Comment
import AngularAtlas.Text.Offset
import AngularAtlas.Text.Search
import AngularAtlas.Text.Utf8
import AngularAtlas.Text.Word
import AngularAtlas.Text.WordTable
import AngularAtlas.Toml.Document
import AngularAtlas.Toml.Literal
import AngularAtlas.Toml.Quoted
import AngularAtlas.Toml.Reader
import AngularAtlas.Toml.Value
import AngularAtlas.Workspace
import AngularAtlas.Workspace.Scan
import AngularAtlas.Proofs.CommandLine.Getting
import AngularAtlas.Proofs.Export.Entities
import AngularAtlas.Proofs.CommandLine.NamesOrigin
import AngularAtlas.Proofs.Hierarchy.TemplateKeys
